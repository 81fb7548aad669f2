import PrintRegistry.Json.Printer
import PrintRegistry.Proofs.Spelling

/-!
The text that is written for a value is one that spells it. The characters of a string that stand
for something else, or that cannot be seen, are written as escapes, and every item and field stands
on a line of its own.
-/

namespace PrintRegistry.Json

variable {cs text : List Char}

theorem areBlanks_nil : AreBlanks [] := nofun

theorem controlEscape_eq : ∀ n < 0x20, ∃ high < 2, ∃ low < 16, n = high * 16 + low ∧
    controlEscape n = ['\\', 'u', '0', '0', Nat.digitChar high, Nat.digitChar low] ∧
    Text.digit? 16 (Nat.digitChar high) = some high ∧
    Text.digit? 16 (Nat.digitChar low) = some low := by
  decide

theorem spellsText_escapedChar (c : Char) (spelled : SpellsText cs text) :
    SpellsText (escapedChar c ++ cs) (c :: text) := by
  rw [escapedChar.eq_def]
  split
  · exact .escape rfl spelled
  · exact .escape rfl spelled
  · exact .escape rfl spelled
  · exact .escape rfl spelled
  · exact .escape rfl spelled
  · exact .escape rfl spelled
  · exact .escape rfl spelled
  · rename_i quote backslash _ _ _ _ _
    split
    · rename_i control
      obtain ⟨high, _, low, _, whole, escape, first, second⟩ := controlEscape_eq c.toNat control
      have unit : SpellsUnit ['0', '0', Nat.digitChar high, Nat.digitChar low] c.toNat := by
        have value : c.toNat = Text.ofDigits 16 [0, 0, high, low] := by
          simp [Text.ofDigits, whole]
        rw [value]
        exact .digits rfl rfl first second
      have spelled := SpellsText.unit unit (by simp [isHighSurrogate]; omega)
        (by simp [isLowSurrogate]; omega) spelled
      rw [Char.ofNat_toNat] at spelled
      rw [escape]
      exact spelled
    · rename_i printable
      exact .plain quote backslash (Nat.le_of_not_lt printable) spelled

theorem spellsText_escaped (text : List Char) : SpellsText (text.flatMap escapedChar) text := by
  induction text with
  | nil => exact .nil
  | cons c text ih =>
    rw [List.flatMap_cons]
    exact spellsText_escapedChar c ih

theorem toList_quotedText (s : String) :
    (quotedText s).toList = '"' :: (s.toList.flatMap escapedChar ++ ['"']) := by
  rw [quotedText, String.toList_ofList]
  rfl

mutual

/-- A value whose text is one that spells it. A number is written as it is, and what is cut or
reads differently where it is used has no text of its own. -/
def HasText : Json → Prop
  | .number literal => Spells literal.toList (.value (.number literal))
  | .array items => HaveTexts items
  | .object fields => FieldsHaveTexts fields
  | .divided _ _ => False
  | .cut _ _ => False
  | _ => True

def HaveTexts : List Json → Prop
  | [] => True
  | item :: items => HasText item ∧ HaveTexts items

def FieldsHaveTexts : List (String × Json) → Prop
  | [] => True
  | (_, value) :: fields => HasText value ∧ FieldsHaveTexts fields

end

/-- The start of a line at a depth. -/
def lineStart (depth : Nat) : List Char :=
  '\n' :: (indent depth).toList

theorem areBlanks_lineStart (depth : Nat) : AreBlanks (lineStart depth) := by
  rw [lineStart, indent, String.toList_ofList]
  rintro c (_ | ⟨_, listed⟩)
  · rfl
  · rw [List.eq_of_mem_replicate listed]
    rfl

theorem spells_onLine (depth : Nat) {j : Json} (spelled : Spells cs (.value j)) :
    Spells (lineStart depth ++ cs) (.value j) := by
  have padded := Spells.padded (areBlanks_lineStart depth) areBlanks_nil spelled
  rwa [List.append_nil] at padded

/-- A field as it is written, on a line of its own. -/
theorem spells_fieldOnLine (depth : Nat) (name : String) {j : Json}
    (spelled : Spells cs (.value j)) :
    Spells (lineStart depth ++ ((quotedText name).toList ++ (':' :: ' ' :: cs)))
      (.field name j) := by
  have blank : AreBlanks [' '] := by
    rintro c (_ | ⟨_, ⟨⟩⟩)
    rfl
  have padded := Spells.padded blank areBlanks_nil spelled
  have field := Spells.field (areBlanks_lineStart depth) (spellsText_escaped name.toList)
    areBlanks_nil padded
  rw [String.ofList_toList, List.append_nil] at field
  rw [toList_quotedText, List.cons_append, List.append_assoc]
  exact field

theorem spells_field_append {name : String} {j : Json} {after : List Char}
    (spelled : Spells cs (.field name j)) (blanks : AreBlanks after) :
    Spells (cs ++ after) (.field name j) := by
  cases spelled with
  | field before named between value =>
    have field := Spells.field before named between (.padded areBlanks_nil blanks value)
    simp only [List.append_assoc, List.cons_append]
    exact field

mutual

/-- What is written for a value spells it. -/
theorem spells_writeAt (depth : Nat) (out : String) : ∀ j : Json, HasText j →
    ∃ cs, (writeAt depth out j).toList = out.toList ++ cs ∧ Spells cs (.value j)
  | .null, _ => ⟨_, String.toList_append, .null⟩
  | .bool b, _ => ⟨_, String.toList_append, .bool b⟩
  | .number literal, text => ⟨_, String.toList_append, text⟩
  | .string text, _ => by
    have spelled := Spells.string (spellsText_escaped text.toList)
    rw [String.ofList_toList, ← toList_quotedText] at spelled
    exact ⟨_, String.toList_append, spelled⟩
  | .array [], _ => ⟨_, String.toList_append, .noItems areBlanks_nil⟩
  | .array (item :: items), text => by
    obtain ⟨first, written, spelled⟩ :=
      spells_writeAt (depth + 1) (out ++ "[\n" ++ indent (depth + 1)) item text.1
    obtain ⟨rest, closed, goesOn⟩ := spells_writeItems depth
      (writeAt (depth + 1) (out ++ "[\n" ++ indent (depth + 1)) item) items text.2
    refine ⟨_, ?_, .array (goesOn _ _ (spells_onLine (depth + 1) spelled))⟩
    rw [writeAt, closed, written]
    simp only [String.toList_append, List.append_assoc]
    rfl
  | .object [], _ => ⟨_, String.toList_append, .noFields areBlanks_nil⟩
  | .object ((name, value) :: fields), text => by
    obtain ⟨first, written, spelled⟩ := spells_writeAt (depth + 1)
      (out ++ "\x7b\n" ++ indent (depth + 1) ++ quotedText name ++ ": ") value text.1
    obtain ⟨rest, closed, goesOn⟩ := spells_writeFields depth (writeAt (depth + 1)
      (out ++ "\x7b\n" ++ indent (depth + 1) ++ quotedText name ++ ": ") value) fields text.2
    refine ⟨_, ?_, .object (goesOn _ _ _ (spells_fieldOnLine (depth + 1) name spelled))⟩
    rw [writeAt, closed, written]
    simp only [String.toList_append, List.append_assoc, lineStart, List.cons_append]
    rfl
  | .divided .., text => text.elim
  | .cut .., text => text.elim

/-- What is written for the items after the first goes on from what spells that one. -/
theorem spells_writeItems (depth : Nat) (out : String) : ∀ items : List Json, HaveTexts items →
    ∃ cs, (writeItems depth out items).toList = out.toList ++ (cs ++ [']']) ∧
      ∀ first item, Spells first (.value item) → Spells (first ++ cs) (.items (item :: items))
  | [], _ => by
    refine ⟨lineStart depth, ?_, fun first item spelled =>
      .lastItem (.padded areBlanks_nil (areBlanks_lineStart depth) spelled)⟩
    rw [writeItems]
    simp only [String.toList_append, List.append_assoc]
    rfl
  | item :: items, texts => by
    obtain ⟨next, written, spelled⟩ :=
      spells_writeAt (depth + 1) (out ++ ",\n" ++ indent (depth + 1)) item texts.1
    obtain ⟨rest, closed, goesOn⟩ := spells_writeItems depth
      (writeAt (depth + 1) (out ++ ",\n" ++ indent (depth + 1)) item) items texts.2
    refine ⟨_, ?_, fun first other first' =>
      .nextItem first' (goesOn _ _ (spells_onLine (depth + 1) spelled))⟩
    rw [writeItems, closed, written]
    simp only [String.toList_append, List.append_assoc, lineStart, List.cons_append]
    rfl

theorem spells_writeFields (depth : Nat) (out : String) : ∀ fields : List (String × Json),
    FieldsHaveTexts fields →
    ∃ cs, (writeFields depth out fields).toList = out.toList ++ (cs ++ ['\x7d']) ∧
      ∀ first name value, Spells first (.field name value) →
        Spells (first ++ cs) (.fields ((name, value) :: fields))
  | [], _ => by
    refine ⟨lineStart depth, ?_, fun first name value spelled =>
      .lastField (spells_field_append spelled (areBlanks_lineStart depth))⟩
    rw [writeFields]
    simp only [String.toList_append, List.append_assoc]
    rfl
  | (name, value) :: fields, texts => by
    obtain ⟨next, written, spelled⟩ := spells_writeAt (depth + 1)
      (out ++ ",\n" ++ indent (depth + 1) ++ quotedText name ++ ": ") value texts.1
    obtain ⟨rest, closed, goesOn⟩ := spells_writeFields depth (writeAt (depth + 1)
      (out ++ ",\n" ++ indent (depth + 1) ++ quotedText name ++ ": ") value) fields texts.2
    refine ⟨_, ?_, fun first _ _ first' =>
      .nextField first' (goesOn _ _ _ (spells_fieldOnLine (depth + 1) name spelled))⟩
    rw [writeFields, closed, written]
    simp only [String.toList_append, List.append_assoc, lineStart, List.cons_append]
    rfl

end

theorem spells_pretty {j : Json} (text : HasText j) : Spells (pretty j).toList (.value j) := by
  obtain ⟨cs, written, spelled⟩ := spells_writeAt 0 "" j text
  rwa [pretty, written]

end PrintRegistry.Json
