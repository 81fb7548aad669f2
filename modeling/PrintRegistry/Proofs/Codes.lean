import Mathlib.Data.Nat.Digits.Defs
import Mathlib.Tactic.IntervalCases
import PrintRegistry.Proofs.Collapse
import PrintRegistry.Proofs.Matching
import PrintRegistry.Proofs.Redirects

/-!
Codes of enumerations. A text is read as a code exactly if it writes an integer of 64 bits, and
the code is that integer. What digits write is told by their places here, not by reading them one
after another. A record that comes to its code then either lists the integer that its value
writes, or changes no values and is reported.
-/

namespace PrintRegistry

namespace Text

/-- The character is the digit for `d` in a radix up to 16. Letters stand for ten and more. -/
def StandsFor (radix : Nat) (c : Char) (d : Nat) : Prop :=
  d < radix ∧ ("0123456789abcdef".toList[d]? = some c ∨ "0123456789ABCDEF".toList[d]? = some c)

/-- One or more digits write `n`, and the first one counts most. -/
def WritesNat (radix : Nat) (cs : List Char) (n : Nat) : Prop :=
  ∃ ds, ds ≠ [] ∧ List.Forall₂ (StandsFor radix) cs ds ∧ Nat.ofDigits radix ds.reverse = n

/-- Digits, with or without a sign before them, write an integer. -/
inductive WritesInt (radix : Nat) : List Char → Int → Prop where
  | unsigned {cs : List Char} {n : Nat} (digits : WritesNat radix cs n) : WritesInt radix cs n
  | plus {cs : List Char} {n : Nat} (digits : WritesNat radix cs n) :
      WritesInt radix ('+' :: cs) n
  | minus {cs : List Char} {n : Nat} (digits : WritesNat radix cs n) :
      WritesInt radix ('-' :: cs) (-n)

/-- An integer is written in decimal or, after a mark, in hexadecimal. -/
inductive WritesCode : List Char → Int → Bool → Prop where
  | decimal {cs : List Char} {n : Int} (written : WritesInt 10 cs n) : WritesCode cs n false
  | hexadecimal {cs : List Char} {n : Int} {mark : Char} (marked : mark = 'x' ∨ mark = 'X')
      (written : WritesInt 16 cs n) : WritesCode ('0' :: mark :: cs) n true

/-- The string writes an integer of 64 bits, blanks around it apart. -/
structure IsCode (s : String) (n : Int) (hexadecimal : Bool) : Prop where
  written : ∃ cs, Padded cs s.toList ∧ WritesCode cs n hexadecimal
  least : -2 ^ 63 ≤ n
  greatest : n ≤ 2 ^ 63 - 1

section Digits

variable {radix n d : Nat} {c : Char} {cs : List Char}

theorem StandsFor.of_digit? (h : digit? radix c = some d) : StandsFor radix c d := by
  obtain ⟨value, small⟩ := Option.filter_eq_some_iff.mp h
  refine ⟨of_decide_eq_true small, ?_⟩
  rw [← c.ofNat_toNat]
  -- Each range is short enough to look at every character in it.
  split at value
  · rename_i range
    obtain rfl := Option.some.inj value
    have first : 48 ≤ c.toNat := range.1
    have last : c.toNat ≤ 57 := range.2
    left
    interval_cases c.toNat <;> rfl
  · split at value
    · rename_i range
      obtain rfl := Option.some.inj value
      have first : 97 ≤ c.toNat := range.1
      have last : c.toNat ≤ 102 := range.2
      left
      interval_cases c.toNat <;> rfl
    · obtain ⟨range, value⟩ := Option.ite_none_right_eq_some.mp value
      obtain rfl := Option.some.inj value
      have first : 65 ≤ c.toNat := range.1
      have last : c.toNat ≤ 70 := range.2
      right
      interval_cases c.toNat <;> rfl

theorem digit?_eq_some (h : StandsFor radix c d) : digit? radix c = some d := by
  obtain ⟨small, listed⟩ := h
  have place : d < 16 := by
    rcases listed with listed | listed <;> exact (List.getElem?_eq_some_iff.mp listed).1
  refine Option.filter_eq_some_iff.mpr ⟨?_, decide_eq_true small⟩
  clear small
  rcases listed with listed | listed <;> interval_cases d <;> cases listed <;> rfl

theorem digit?_eq_some_iff : digit? radix c = some d ↔ StandsFor radix c d :=
  ⟨.of_digit?, digit?_eq_some⟩

theorem StandsFor.mem (h : StandsFor radix c d) : c ∈ "0123456789abcdefABCDEF".toList := by
  have lower : "0123456789abcdef".toList ⊆ "0123456789abcdefABCDEF".toList := by decide
  have upper : "0123456789ABCDEF".toList ⊆ "0123456789abcdefABCDEF".toList := by decide
  rcases h.2 with listed | listed
  · exact lower (List.mem_of_getElem? listed)
  · exact upper (List.mem_of_getElem? listed)

/-- A digit moves what is written before it by one place. -/
theorem digitsFrom?_eq_some_iff {acc : Nat} : digitsFrom? radix acc cs = some n ↔
    ∃ ds, List.Forall₂ (StandsFor radix) cs ds ∧
      acc * radix ^ ds.length + Nat.ofDigits radix ds.reverse = n := by
  induction cs generalizing acc with
  | nil => simp [digitsFrom?]
  | cons c cs ih =>
    have moved : ∀ d ds, acc * radix ^ (d :: ds).length + Nat.ofDigits radix (d :: ds).reverse =
        (acc * radix + d) * radix ^ ds.length + Nat.ofDigits radix ds.reverse := by
      intro d ds
      rw [List.reverse_cons, Nat.ofDigits_append, Nat.ofDigits_singleton, List.length_reverse,
        List.length_cons]
      ring
    simp only [digitsFrom?, Option.bind_eq_some_iff, digit?_eq_some_iff, ih]
    constructor
    · rintro ⟨d, digit, ds, digits, rfl⟩
      exact ⟨d :: ds, .cons digit digits, moved d ds⟩
    · rintro ⟨_, digits, rfl⟩
      cases digits with
      | cons digit digits => exact ⟨_, digit, _, digits, (moved _ _).symm⟩

theorem magnitude?_eq_some_iff : magnitude? radix cs = some n ↔ WritesNat radix cs n := by
  rw [magnitude?, WritesNat]
  cases cs with
  | nil => simp
  | cons c cs =>
    simp only [List.isEmpty_cons, Bool.false_eq_true, if_false, digitsFrom?_eq_some_iff,
      Nat.zero_mul, Nat.zero_add]
    refine exists_congr fun ds => ⟨fun ⟨digits, value⟩ => ⟨?_, digits, value⟩, And.right⟩
    rintro rfl
    cases digits

theorem WritesNat.mem (h : WritesNat radix cs n) (member : c ∈ cs) :
    c ∈ "0123456789abcdefABCDEF".toList := by
  obtain ⟨ds, -, digits, -⟩ := h
  obtain ⟨d, -, digit⟩ := exists_of_forall₂ digits member
  exact digit.mem

theorem WritesNat.ne_nil (h : WritesNat radix cs n) : cs ≠ [] := by
  rintro rfl
  obtain ⟨ds, some, digits, -⟩ := h
  cases digits
  exact some rfl

end Digits

section Integers

variable {radix : Nat} {n : Int} {c : Char} {cs : List Char} {hexadecimal : Bool}

theorem signed?_eq_some_iff : signed? radix cs = some n ↔ WritesInt radix cs n := by
  constructor
  · intro read
    rw [signed?.eq_def] at read
    split at read
    · obtain ⟨_, lifted, rfl⟩ := Option.map_eq_some_iff.mp read
      obtain ⟨m, digits, same⟩ := Option.bind_eq_some_iff.mp lifted
      cases same
      exact .minus (magnitude?_eq_some_iff.mp digits)
    · obtain ⟨m, digits, rfl⟩ := Option.map_eq_some_iff.mp read
      exact .plus (magnitude?_eq_some_iff.mp digits)
    · obtain ⟨m, digits, rfl⟩ := Option.map_eq_some_iff.mp read
      exact .unsigned (magnitude?_eq_some_iff.mp digits)
  · intro written
    cases written with
    | plus digits => rw [signed?, magnitude?_eq_some_iff.mpr digits]; rfl
    | minus digits => rw [signed?, magnitude?_eq_some_iff.mpr digits]; rfl
    | unsigned digits =>
      -- No sign is a digit.
      rw [signed?.eq_def]
      split
      · exact absurd (digits.mem List.mem_cons_self) (by decide)
      · exact absurd (digits.mem List.mem_cons_self) (by decide)
      · rw [magnitude?_eq_some_iff.mpr digits]
        rfl

theorem fits64_iff : fits64 n = true ↔ -2 ^ 63 ≤ n ∧ n ≤ 2 ^ 63 - 1 := by
  rw [fits64, Bool.and_eq_true, decide_eq_true_iff, decide_eq_true_iff]
  norm_num

theorem WritesInt.mem (h : WritesInt radix cs n) (member : c ∈ cs) :
    c ∈ "+-0123456789abcdefABCDEF".toList := by
  have digit : "0123456789abcdefABCDEF".toList ⊆ "+-0123456789abcdefABCDEF".toList := by decide
  cases h with
  | unsigned digits => exact digit (digits.mem member)
  | plus digits | minus digits =>
    rcases List.mem_cons.mp member with rfl | later
    · decide
    · exact digit (digits.mem later)

theorem WritesInt.ne_nil (h : WritesInt radix cs n) : cs ≠ [] := by
  cases h with
  | unsigned digits => exact digits.ne_nil
  | plus _ | minus _ => exact List.cons_ne_nil _ _

theorem WritesInt.isPhrase (h : WritesInt radix cs n) : IsPhrase cs := by
  have full : "+-0123456789abcdefABCDEF".toList.all (isBlank · == false) = true := rfl
  exact isPhrase_of_full h.ne_nil fun c member =>
    beq_iff_eq.mp (List.all_eq_true.mp full c (h.mem member))

theorem WritesCode.isPhrase (h : WritesCode cs n hexadecimal) : IsPhrase cs := by
  cases h with
  | decimal written => exact written.isPhrase
  | hexadecimal marked written =>
    obtain ⟨start, last, split, full⟩ := written.isPhrase.exists_concat
    rw [split]
    refine ⟨List.cons_ne_nil _ _, rfl, ?_⟩
    rw [← List.cons_append, ← List.cons_append, List.getLast?_concat]
    exact full

theorem map_signed?_eq_some_iff {marked : Bool} :
    ((signed? radix cs).filter fits64).map (·, marked) = some (n, hexadecimal) ↔
      WritesInt radix cs n ∧ marked = hexadecimal ∧ -2 ^ 63 ≤ n ∧ n ≤ 2 ^ 63 - 1 := by
  simp only [Option.map_eq_some_iff, Option.filter_eq_some_iff, signed?_eq_some_iff, fits64_iff,
    Prod.mk.injEq]
  constructor
  · rintro ⟨_, ⟨written, inside⟩, rfl, same⟩
    exact ⟨written, same, inside⟩
  · rintro ⟨written, same, inside⟩
    exact ⟨n, ⟨written, inside⟩, rfl, same⟩

/-- A text is read as a code exactly if it is one. -/
theorem code?_eq_some_iff {s : String} :
    code? s = some (n, hexadecimal) ↔ IsCode s n hexadecimal := by
  constructor
  · intro read
    have around := Padded.trim s.toList
    rw [code?] at read
    split at read
    · rename_i core
      obtain ⟨written, rfl, least, greatest⟩ := map_signed?_eq_some_iff.mp read
      exact ⟨⟨_, around, core ▸ .hexadecimal (Or.inl rfl) written⟩, least, greatest⟩
    · rename_i core
      obtain ⟨written, rfl, least, greatest⟩ := map_signed?_eq_some_iff.mp read
      exact ⟨⟨_, around, core ▸ .hexadecimal (Or.inr rfl) written⟩, least, greatest⟩
    · obtain ⟨written, rfl, least, greatest⟩ := map_signed?_eq_some_iff.mp read
      exact ⟨⟨_, around, .decimal written⟩, least, greatest⟩
  · rintro ⟨⟨cs, around, written⟩, least, greatest⟩
    rw [code?, around.trim_eq written.isPhrase]
    cases written with
    | hexadecimal marked written =>
      rcases marked with rfl | rfl <;>
        exact map_signed?_eq_some_iff.mpr ⟨written, rfl, least, greatest⟩
    | decimal written =>
      -- A mark is no digit, so the text is not taken for a hexadecimal one.
      split
      · exact absurd (written.mem (c := 'x') (by simp)) (by decide)
      · exact absurd (written.mem (c := 'X') (by simp)) (by decide)
      · exact map_signed?_eq_some_iff.mpr ⟨written, rfl, least, greatest⟩

end Integers

end Text

namespace EnumRecord

/-- The record comes to its code: its label defers to no other enumeration and is neither
qualified nor reserved, and its enumeration is not another one. -/
structure GivesCode (r : EnumRecord) (label value : String) : Prop where
  labelled : r.name = some label
  valued : r.value = some value
  own : Reference.ofEnumLabel? label = none
  kept : replacedEnums.lookup r.about = none
  unqualified : isQualified label = false
  unreserved : Text.contains label "Reserved" = false

variable {r : EnumRecord} {label value : String}

theorem enter_of_givesCode (given : r.GivesCode label value) {e : Entity}
    (named : e.name = r.about) : r.enter e = match Text.code? value with
      | some (code, hexadecimal) => (e.redirected.withCode label code hexadecimal, none)
      | none => (e.redirected, some (.enumCodeNotInteger r.about value)) := by
  have name : e.redirected.name = r.about := e.name_redirected.trans named
  rw [enter]
  simp only [given.labelled, given.valued, given.own, given.kept, name, Option.bind_some]
  rw [enterCode, given.unqualified, given.unreserved, name]
  rfl

end EnumRecord

namespace Registry

/-- The values that an enumeration lists. -/
def valuesOf (r : Registry) (enum : String) : Values :=
  ((r.enums.find? enum).map Entity.values).getD .unlisted

/-- The code that an enumeration lists for a label. -/
def codeOf? (r : Registry) (enum label : String) : Option Int :=
  (Named.find? (r.valuesOf enum).asCodes label).map EnumCode.code

/-- The entry that a record is entered into, with the citation of the record. -/
def entryFor (r : Registry) (record : EnumRecord) : Entity :=
  ((r.enums.find? record.about).getD (Entity.fresh record.about record.grammar)).citingAny
    (Citation.specId? record.citation)

section Entering

variable (r : Registry) (record : EnumRecord)

theorem name_entryFor : (r.entryFor record).name = record.about := by
  rw [entryFor, AttributeRecord.name_citingAny]
  cases found : r.enums.find? record.about with
  | none => rfl
  | some e => exact (Table.mem_of_find? found).2

theorem values_entryFor : (r.entryFor record).values = r.valuesOf record.about := by
  rw [entryFor, AttributeRecord.values_citingAny, valuesOf]
  cases r.enums.find? record.about <;> rfl

theorem valuesOf_ingestEnum (enum : String) : (r.ingestEnum record).valuesOf enum =
    if record.about = enum then (record.enter (r.entryFor record)).1.values
    else r.valuesOf enum := by
  have found : (r.ingestEnum record).enums.find? enum =
      if record.about = enum then some (record.enter (r.entryFor record)).1
      else r.enums.find? enum := by
    rw [ingestEnum_eq_enterEnum]
    exact ValueRecord.find?_enterInto (r.enums, r.findings) record.toValue enum
  rw [valuesOf, found]
  split <;> rfl

/-- A citation that cannot be read is reported before the record is entered. -/
theorem findings_ingestEnum : (r.ingestEnum record).findings = r.findings ++
    (Citation.finding? record.citation).toList ++
      (record.enter (r.entryFor record)).2.toList := by
  rw [ingestEnum_eq_enterEnum, List.append_assoc]
  rfl

end Entering

section Codes

variable {record : EnumRecord} {label value : String}

theorem codeOf?_ingestEnum (r : Registry) (given : record.GivesCode label value) {n : Int}
    {hexadecimal : Bool} (read : Text.code? value = some (n, hexadecimal)) (enum other : String) :
    (r.ingestEnum record).codeOf? enum other =
      if enum = record.about ∧ other = label then some n else r.codeOf? enum other := by
  rw [codeOf?, valuesOf_ingestEnum, codeOf?,
    EnumRecord.enter_of_givesCode given (r.name_entryFor record), read]
  by_cases about : record.about = enum
  · subst about
    have listed : ((r.entryFor record).redirected.withCode label n hexadecimal).values.asCodes =
        Named.put (r.valuesOf record.about).asCodes ⟨label, n⟩ := by
      rw [← values_entryFor, ← (r.entryFor record).values_redirected]
      rfl
    rw [if_pos rfl, listed, Named.find?_put]
    by_cases same : label = other
    · simp [nameOf, same]
    · simp [nameOf, same, Ne.symm same]
  · rw [if_neg about, if_neg fun both => about both.1.symm]

theorem valuesOf_ingestEnum_of_none (r : Registry) (given : record.GivesCode label value)
    (read : Text.code? value = none) (enum : String) :
    (r.ingestEnum record).valuesOf enum = r.valuesOf enum := by
  rw [valuesOf_ingestEnum, EnumRecord.enter_of_givesCode given (r.name_entryFor record), read]
  split
  · rename_i about
    rw [← about, ← values_entryFor]
    exact Entity.values_redirected _
  · rfl

/-- A string is read as a code exactly if it writes an integer of 64 bits, and then as this
integer. A record that comes to its code lists the integer that its value writes, and changes no
other code; or its value writes none, and then it changes no values and makes one finding. -/
theorem code_listed_or_reported :
    (∀ s n hexadecimal, Text.code? s = some (n, hexadecimal) ↔ Text.IsCode s n hexadecimal) ∧
    ∀ (r : Registry) (record : EnumRecord) (label value : String),
      record.GivesCode label value →
      (∃ n hexadecimal, Text.IsCode value n hexadecimal ∧
        (∀ enum other, (r.ingestEnum record).codeOf? enum other =
          if enum = record.about ∧ other = label then some n else r.codeOf? enum other) ∧
        (r.ingestEnum record).findings =
          r.findings ++ (Citation.finding? record.citation).toList) ∨
      (∀ n hexadecimal, ¬ Text.IsCode value n hexadecimal) ∧
        (∀ enum, (r.ingestEnum record).valuesOf enum = r.valuesOf enum) ∧
        ∃ f : Finding, f.warning =
            ⟨.unreadable, s!"enum {record.about} has non-integer value {value}", none⟩ ∧
          (r.ingestEnum record).findings =
            r.findings ++ (Citation.finding? record.citation).toList ++ [f] := by
  refine ⟨fun _ _ _ => Text.code?_eq_some_iff, fun r record label value given => ?_⟩
  have findings := r.findings_ingestEnum record
  rw [EnumRecord.enter_of_givesCode given (r.name_entryFor record)] at findings
  cases read : Text.code? value with
  | some written =>
    rw [read, Option.toList_none, List.append_nil] at findings
    exact Or.inl ⟨_, _, Text.code?_eq_some_iff.mp read, r.codeOf?_ingestEnum given read, findings⟩
  | none =>
    rw [read] at findings
    refine Or.inr ⟨fun n hexadecimal code => ?_, r.valuesOf_ingestEnum_of_none given read, _, rfl,
      findings⟩
    rw [Text.code?_eq_some_iff.mpr code] at read
    cases read

end Codes

/-- The greatest code, in hexadecimal and with blanks around it. -/
def greatestCode : EnumRecord where
  about := "finishings"
  name := some "staple"
  value := some "\t0x7FFFFFFFFFFFFFFF "

/-- The integer after it. -/
def tooGreatCode : EnumRecord where
  about := "finishings"
  name := some "punch"
  value := some "+09223372036854775808"

theorem code_listed_or_reported_of_finishings :
    greatestCode.GivesCode "staple" "\t0x7FFFFFFFFFFFFFFF " ∧
      tooGreatCode.GivesCode "punch" "+09223372036854775808" ∧
      (({} : Registry).ingestEnum greatestCode).codeOf? "finishings" "staple" =
        some (2 ^ 63 - 1) ∧
      ∀ r : Registry, (r.ingestEnum tooGreatCode).valuesOf "finishings" =
        r.valuesOf "finishings" ∧
          (r.ingestEnum tooGreatCode).findings.length = r.findings.length + 1 := by
  have greatest : greatestCode.GivesCode "staple" "\t0x7FFFFFFFFFFFFFFF " :=
    ⟨rfl, rfl, by decide, by decide, by decide, by decide⟩
  have tooGreat : tooGreatCode.GivesCode "punch" "+09223372036854775808" :=
    ⟨rfl, rfl, by decide, by decide, by decide, by decide⟩
  obtain ⟨exactly, entered⟩ := code_listed_or_reported
  refine ⟨greatest, tooGreat, ?_, fun r => ?_⟩
  · have listed := entered {} greatestCode _ _ greatest
    have read : Text.code? "\t0x7FFFFFFFFFFFFFFF " = some (2 ^ 63 - 1, true) := by decide
    rcases listed with ⟨n, hexadecimal, code, stored, -⟩ | ⟨none, -⟩
    · have same := (exactly _ _ _).mpr code
      rw [read] at same
      cases same
      exact (stored _ _).trans (if_pos ⟨rfl, rfl⟩)
    · exact absurd ((exactly _ _ _).mp read) (none _ _)
  · have listed := entered r tooGreatCode _ _ tooGreat
    have read : Text.code? "+09223372036854775808" = none := by decide
    rcases listed with ⟨n, hexadecimal, code, -⟩ | ⟨-, kept, f, -, findings⟩
    · have same := (exactly _ _ _).mpr code
      rw [read] at same
      cases same
    · refine ⟨kept _, ?_⟩
      rw [findings, List.length_append]
      simp [tooGreatCode, Citation.finding?]

end Registry

end PrintRegistry
