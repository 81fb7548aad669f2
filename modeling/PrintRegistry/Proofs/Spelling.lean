import PrintRegistry.Json.Reader
import Mathlib.Data.List.DropRight
import Mathlib.Data.List.TakeWhile

/-!
Texts that spell a value. A value has many of them: blanks may stand around it and its parts, and
a character of a string may be written as itself, by an escape, or by its UTF-16 units in
hexadecimal digits. Each of them is read as the value. Strings with half a surrogate pair, which
spell no text, are left out.
-/

namespace PrintRegistry.Json

/-- A character that may stand between the parts of a text. -/
def isBlank (c : Char) : Bool :=
  c == ' ' || c == '\n' || c == '\t' || c == '\r'

def AreBlanks (cs : List Char) : Prop :=
  ∀ c ∈ cs, isBlank c = true

/-- Four digits spell a UTF-16 unit. -/
inductive SpellsUnit : List Char → Nat → Prop where
  | digits {a b c d : Char} {w x y z : Nat} :
      Text.digit? 16 a = some w → Text.digit? 16 b = some x → Text.digit? 16 c = some y →
      Text.digit? 16 d = some z → SpellsUnit [a, b, c, d] (Text.ofDigits 16 [w, x, y, z])

/-- What stands between the quotes of a string spells the characters of a text. -/
inductive SpellsText : List Char → List Char → Prop where
  | nil : SpellsText [] []
  | plain {c : Char} {cs text : List Char} : c ≠ '"' → c ≠ '\\' → 0x20 ≤ c.toNat →
      SpellsText cs text → SpellsText (c :: cs) (c :: text)
  | escape {e c : Char} {cs text : List Char} : simpleEscape? e = some c →
      SpellsText cs text → SpellsText ('\\' :: e :: cs) (c :: text)
  | unit {u cs text : List Char} {n : Nat} : SpellsUnit u n → isHighSurrogate n = false →
      isLowSurrogate n = false → SpellsText cs text →
      SpellsText ('\\' :: 'u' :: (u ++ cs)) (Char.ofNat n :: text)
  | surrogates {u v cs text : List Char} {high low : Nat} : SpellsUnit u high →
      isHighSurrogate high = true → SpellsUnit v low → isLowSurrogate low = true →
      SpellsText cs text → SpellsText ('\\' :: 'u' :: (u ++ '\\' :: 'u' :: (v ++ cs)))
        (ofSurrogates high low :: text)

def AreDigits (cs : List Char) : Prop :=
  cs ≠ [] ∧ ∀ c ∈ cs, Text.isDigit c = true

/-- The fraction of a number, if it has one, with what it adds to the magnitude. -/
inductive SpellsFraction (m : Magnitude) : List Char → Magnitude → Prop where
  | absent : SpellsFraction m [] m
  | digits {digits : List Char} : AreDigits digits →
      SpellsFraction m ('.' :: digits) (m.withFraction digits)

/-- The exponent of a number, if it has one. -/
inductive SpellsExponent (m : Magnitude) : List Char → Magnitude → Prop where
  | absent : SpellsExponent m [] m
  | power {e : Char} {sign digits : List Char} : e = 'e' ∨ e = 'E' →
      sign = [] ∨ sign = ['+'] ∨ sign = ['-'] → AreDigits digits →
      SpellsExponent m (e :: (sign ++ digits))
        (m.scaled (if sign = ['-'] then -digitsValue digits else digitsValue digits))

/-- What a piece of a text spells: a value, the items of an array, a field or the fields of an
object. -/
inductive Part where
  | value (j : Json)
  | items (items : List Json)
  | field (name : String) (value : Json)
  | fields (fields : List (String × Json))

inductive Spells : List Char → Part → Prop where
  | null : Spells "null".toList (.value null)
  | bool (b : Bool) : Spells (if b then "true" else "false").toList (.value (bool b))
  | string {cs text : List Char} :
      SpellsText cs text → Spells ('"' :: (cs ++ ['"'])) (.value (string (String.ofList text)))
  | number {sign whole fraction exponent : List Char} {m n : Magnitude} :
      sign = [] ∨ sign = ['-'] → AreDigits whole → (whole.head? = some '0' → whole = ['0']) →
      SpellsFraction (.ofWhole whole) fraction m → SpellsExponent m exponent n →
      Spells (sign ++ (whole ++ (fraction ++ exponent)))
        (.value (numberValue (sign ++ (whole ++ (fraction ++ exponent))) n))
  | noItems {cs : List Char} : AreBlanks cs → Spells ('[' :: (cs ++ [']'])) (.value (array []))
  | array {cs : List Char} {items : List Json} :
      Spells cs (.items items) → Spells ('[' :: (cs ++ [']'])) (.value (array items))
  | noFields {cs : List Char} :
      AreBlanks cs → Spells ('\x7b' :: (cs ++ ['\x7d'])) (.value (object []))
  | object {cs : List Char} {fields : List (String × Json)} :
      Spells cs (.fields fields) → Spells ('\x7b' :: (cs ++ ['\x7d'])) (.value (object fields))
  | padded {before cs after : List Char} {j : Json} : AreBlanks before → AreBlanks after →
      Spells cs (.value j) → Spells (before ++ (cs ++ after)) (.value j)
  | lastItem {cs : List Char} {j : Json} : Spells cs (.value j) → Spells cs (.items [j])
  | nextItem {cs rest : List Char} {j : Json} {items : List Json} : Spells cs (.value j) →
      Spells rest (.items items) → Spells (cs ++ ',' :: rest) (.items (j :: items))
  | field {before name text after cs : List Char} {j : Json} : AreBlanks before →
      SpellsText name text → AreBlanks after → Spells cs (.value j) →
      Spells (before ++ '"' :: (name ++ '"' :: (after ++ ':' :: cs)))
        (.field (String.ofList text) j)
  | lastField {cs : List Char} {name : String} {j : Json} :
      Spells cs (.field name j) → Spells cs (.fields [(name, j)])
  | nextField {cs rest : List Char} {name : String} {j : Json} {fields : List (String × Json)} :
      Spells cs (.field name j) → Spells rest (.fields fields) →
      Spells (cs ++ ',' :: rest) (.fields ((name, j) :: fields))

/-! ### Blanks -/

variable {cs rest text u : List Char} {c : Char} {n fuel : Nat}

theorem exists_succ (enough : n < fuel) : ∃ less, fuel = less + 1 :=
  ⟨fuel - 1, by omega⟩

theorem skipBlanks_append (blanks : AreBlanks cs) : skipBlanks (cs ++ rest) = skipBlanks rest :=
  List.dropWhile_append_of_pos blanks

theorem skipBlanks_cons (other : isBlank c = false) : skipBlanks (c :: cs) = c :: cs :=
  List.dropWhile_cons_of_neg (Bool.eq_false_iff.mp other)

theorem skipBlanks_skipBlanks (cs : List Char) : skipBlanks (skipBlanks cs) = skipBlanks cs :=
  List.dropWhile_idempotent _ _

/-! ### Strings -/

theorem readUnit_of_spells (spelled : SpellsUnit u n) : readUnit (u ++ rest) = .ok (n, rest) := by
  obtain ⟨first, second, third, fourth⟩ := spelled
  rename_i a b c d w x y z
  have long : ¬ Text.size [a, b, c, d] < 4 := by
    have sizes := And.intro a.utf8Size_pos (And.intro b.utf8Size_pos
      (And.intro c.utf8Size_pos d.utf8Size_pos))
    simp only [Text.size, List.foldl_cons, List.foldl_nil]
    omega
  change readUnit (a :: b :: c :: d :: rest) = _
  rw [readUnit, first, second, third, fourth]
  exact if_neg long

theorem readStringFrom_plain {chars : List Char} (quote : c ≠ '"') (backslash : c ≠ '\\')
    (printable : 0x20 ≤ c.toNat) : readStringFrom (fuel + 1) { chars } (c :: cs) =
      readStringFrom fuel { chars := c :: chars } cs := by
  rw [readStringFrom, if_neg (Nat.not_lt.mpr printable)]
  · rfl
  · exact quote
  · exact fun same _ => backslash same
  · exact fun _ same _ => backslash same
  · exact fun _ _ same _ => backslash same

theorem readStringFrom_escape {chars : List Char} {e : Char} (known : simpleEscape? e = some c) :
    readStringFrom (fuel + 1) { chars } ('\\' :: e :: cs) =
      readStringFrom fuel { chars := c :: chars } cs := by
  rw [readStringFrom, known]
  · rfl
  · rintro rfl
    cases known

theorem readStringFrom_unit (s : StringState) (spelled : SpellsUnit u n) :
    readStringFrom (fuel + 1) s ('\\' :: 'u' :: (u ++ cs)) =
      readStringFrom fuel (s.addUnit n) cs := by
  rw [readStringFrom, readUnit_of_spells spelled]

/-- What spells a text is read up to the quote that follows. -/
theorem readStringFrom_of_spells (spelled : SpellsText cs text) (chars : List Char)
    (enough : cs.length < fuel) :
    readStringFrom fuel { chars } (cs ++ '"' :: rest) =
      ({ chars := text.reverse ++ chars }, .ok rest) := by
  induction spelled generalizing fuel chars with
  | nil =>
    obtain ⟨fuel, rfl⟩ := exists_succ enough
    rfl
  | @plain c cs text quote backslash printable _ ih =>
    obtain ⟨fuel, rfl⟩ := exists_succ enough
    rw [List.cons_append, readStringFrom_plain quote backslash printable,
      ih (c :: chars) (Nat.lt_of_succ_lt_succ enough), List.reverse_cons, List.append_assoc]
    rfl
  | @escape e c cs text known _ ih =>
    obtain ⟨fuel, rfl⟩ := exists_succ enough
    rw [List.length_cons, List.length_cons] at enough
    rw [List.cons_append, List.cons_append, readStringFrom_escape known, ih (c :: chars) (by omega),
      List.reverse_cons, List.append_assoc]
    rfl
  | @unit u cs text n unit notHigh notLow _ ih =>
    obtain ⟨fuel, rfl⟩ := exists_succ enough
    simp only [List.length_cons, List.length_append] at enough
    have pushed : ({ chars } : StringState).addUnit n = { chars := Char.ofNat n :: chars } := by
      simp only [StringState.addUnit, notHigh, notLow, Bool.false_eq_true, if_false,
        StringState.push]
    rw [List.cons_append, List.cons_append, List.append_assoc, readStringFrom_unit _ unit, pushed,
      ih (Char.ofNat n :: chars) (by omega), List.reverse_cons, List.append_assoc]
    rfl
  | @surrogates u v cs text high low first isHigh second isLow _ ih =>
    simp only [List.length_cons, List.length_append] at enough
    obtain ⟨fuel, rfl⟩ : ∃ n, fuel = n + 2 := ⟨fuel - 2, by omega⟩
    have waiting : ({ chars } : StringState).addUnit high = { chars, high := some high } := by
      simp only [StringState.addUnit, isHigh, if_true]
    have pushed : ({ chars, high := some high } : StringState).addUnit low =
        { chars := ofSurrogates high low :: chars } := by
      simp only [StringState.addUnit, isLow, if_true, StringState.push]
    rw [List.cons_append, List.cons_append, List.append_assoc, List.cons_append, List.cons_append,
      List.append_assoc, readStringFrom_unit _ first, waiting, readStringFrom_unit _ second, pushed,
      ih (ofSurrogates high low :: chars) (by omega), List.reverse_cons, List.append_assoc]
    rfl

/-! ### Numbers -/

/-- What follows does not go on with a number. -/
def Ends (rest : List Char) : Prop :=
  ∀ c ∈ rest.head?, isBlank c = true ∨ c = ',' ∨ c = ']' ∨ c = '\x7d'

theorem ends_cons (follows : isBlank c = true ∨ c = ',' ∨ c = ']' ∨ c = '\x7d') :
    Ends (c :: rest) := by
  rintro _ ⟨⟩
  exact follows

theorem ends_of_blanks (blanks : AreBlanks cs) (ends : Ends rest) : Ends (cs ++ rest) := by
  cases cs with
  | nil => exact ends
  | cons c cs =>
    exact ends_cons (Or.inl (blanks c List.mem_cons_self))

theorem ends_head (ends : Ends (c :: rest)) :
    Text.isDigit c = false ∧ c ≠ '.' ∧ ¬(c = 'e' ∨ c = 'E') := by
  rcases ends c rfl with blank | rfl | rfl | rfl
  · simp only [isBlank, Bool.or_eq_true, beq_iff_eq] at blank
    rcases blank with ((rfl | rfl) | rfl) | rfl <;> decide
  all_goals decide

theorem takeWhile_digits {digits : List Char} (areDigits : AreDigits digits)
    (ends : ∀ c ∈ rest.head?, Text.isDigit c = false) :
    (digits ++ rest).takeWhile Text.isDigit = digits ∧
      (digits ++ rest).dropWhile Text.isDigit = rest := by
  rw [List.takeWhile_append_of_pos areDigits.2, List.dropWhile_append_of_pos areDigits.2]
  cases rest with
  | nil => exact ⟨List.append_nil _, rfl⟩
  | cons c rest =>
    have stops := Bool.eq_false_iff.mp (ends c rfl)
    rw [List.takeWhile_cons_of_neg stops, List.dropWhile_cons_of_neg stops]
    exact ⟨List.append_nil _, rfl⟩

theorem digit_ne {d : Char} (digit : Text.isDigit c = true) (other : Text.isDigit d = false) :
    c ≠ d := by
  rintro rfl
  exact Bool.false_ne_true (other.symm.trans digit)

theorem isBlank_digit (digit : Text.isDigit c = true) : isBlank c = false := by
  simp only [isBlank, Bool.or_eq_false_iff, beq_eq_false_iff_ne]
  exact ⟨⟨⟨digit_ne digit rfl, digit_ne digit rfl⟩, digit_ne digit rfl⟩, digit_ne digit rfl⟩

variable {fraction exponent : List Char} {m m' : Magnitude}

theorem exponent_ends (spelled : SpellsExponent m exponent m') (ends : Ends rest) :
    ∀ c ∈ (exponent ++ rest).head?, Text.isDigit c = false ∧ c ≠ '.' := by
  cases spelled with
  | absent =>
    cases rest with
    | nil => exact nofun
    | cons c rest =>
      rintro _ ⟨⟩
      exact ⟨(ends_head ends).1, (ends_head ends).2.1⟩
  | power letter =>
    rintro _ ⟨⟩
    rcases letter with rfl | rfl <;> decide

theorem readExponent_of_spells (spelled : SpellsExponent m exponent m') (ends : Ends rest)
    (literal : List Char) : readExponent literal m (exponent ++ rest) =
      (numberValue (literal ++ exponent) m', some rest) := by
  cases spelled with
  | absent =>
    rw [List.append_nil]
    cases rest with
    | nil => rfl
    | cons c rest =>
      rw [List.nil_append, readExponent.eq_def]
      exact if_neg (ends_head ends).2.2
  | @power e sign digits letter signed areDigits =>
    have ends : ∀ c ∈ rest.head?, Text.isDigit c = false := fun c listed =>
      (exponent_ends (m := m) .absent ends c listed).1
    obtain ⟨taken, left⟩ := takeWhile_digits areDigits ends
    have some : digits.isEmpty = false := List.isEmpty_eq_false_iff.mpr areDigits.1
    have unsigned : ∀ {c}, Text.isDigit c = false → ∀ more, digits ++ rest ≠ c :: more := by
      obtain ⟨d, ds, rfl⟩ := List.exists_cons_of_ne_nil areDigits.1
      exact fun other more same =>
        digit_ne (areDigits.2 d List.mem_cons_self) other (List.cons.inj same).1
    rw [List.cons_append, List.append_assoc]
    rcases signed with rfl | rfl | rfl
    · rw [List.nil_append, readExponent, if_pos letter]
      · simp only [taken, left, some, List.append_assoc, List.cons_append, List.nil_append]
        rfl
      · exact unsigned rfl
      · exact unsigned rfl
    · rw [List.cons_append, readExponent, if_pos letter]
      simp only [taken, left, some, List.append_assoc, List.cons_append, List.nil_append]
      rfl
    · rw [List.cons_append, readExponent, if_pos letter]
      simp only [taken, left, some, List.append_assoc, List.cons_append, List.nil_append]
      rfl

theorem readFraction_of_spells {m'' : Magnitude} (spelled : SpellsFraction m fraction m')
    (power : SpellsExponent m' exponent m'') (ends : Ends rest) (literal : List Char) :
    readFraction literal m (fraction ++ (exponent ++ rest)) =
      (numberValue (literal ++ (fraction ++ exponent)) m'', some rest) := by
  have stops := exponent_ends power ends
  cases spelled with
  | absent =>
    rw [List.nil_append, List.nil_append, readFraction.eq_def]
    split
    · rename_i same
      rw [same] at stops
      exact absurd rfl (stops '.' rfl).2
    · exact readExponent_of_spells power ends literal
  | @digits digits areDigits =>
    obtain ⟨taken, left⟩ := takeWhile_digits areDigits fun c listed => (stops c listed).1
    have some : digits.isEmpty = false := List.isEmpty_eq_false_iff.mpr areDigits.1
    rw [List.cons_append, readFraction]
    simp only [taken, left, some]
    rw [if_neg Bool.false_ne_true, readExponent_of_spells power ends, List.append_assoc]

theorem readNumber_of_spells {m'' : Magnitude} {whole : List Char} (areDigits : AreDigits whole)
    (leading : whole.head? = some '0' → whole = ['0'])
    (spelled : SpellsFraction (.ofWhole whole) fraction m')
    (power : SpellsExponent m' exponent m'') (ends : Ends rest) (sign : List Char) :
    readNumber sign (whole ++ (fraction ++ (exponent ++ rest))) =
      (numberValue (sign ++ (whole ++ (fraction ++ exponent))) m'', some rest) := by
  have stops : ∀ c ∈ (fraction ++ (exponent ++ rest)).head?, Text.isDigit c = false := by
    cases spelled with
    | absent => exact fun c listed => (exponent_ends power ends c listed).1
    | digits =>
      rintro _ ⟨⟩
      rfl
  obtain ⟨taken, left⟩ := takeWhile_digits areDigits stops
  rw [readNumber]
  simp only [taken, left]
  split
  · exact absurd rfl areDigits.1
  · cases leading rfl
  · rw [readFraction_of_spells spelled power ends, List.append_assoc]

/-! ### Values -/

theorem readValue_skipBlanks (fuel : Nat) (cs : List Char) :
    readValue fuel (skipBlanks cs) = readValue fuel cs := by
  cases fuel with
  | zero => rfl
  | succ fuel =>
    rw [readValue.eq_def, readValue.eq_def]
    dsimp only
    rw [skipBlanks_skipBlanks]

theorem readItems_skipBlanks (fuel : Nat) (before : List Json) (cs : List Char) :
    readItems fuel before (skipBlanks cs) = readItems fuel before cs := by
  cases fuel with
  | zero => rfl
  | succ fuel =>
    rw [readItems.eq_def, readItems.eq_def]
    dsimp only
    rw [readValue_skipBlanks]

theorem readFields_skipBlanks (fuel : Nat) (before : List (String × Json)) (used : UsedFields)
    (cs : List Char) :
    readFields fuel before used (skipBlanks cs) = readFields fuel before used cs := by
  cases fuel with
  | zero => rfl
  | succ fuel =>
    rw [readFields.eq_def, readFields.eq_def]
    dsimp only
    rw [skipBlanks_skipBlanks]

theorem skipBlanks_append_of_cons {more : List Char} (start : skipBlanks cs = c :: more)
    (rest : List Char) : skipBlanks (cs ++ rest) = c :: (more ++ rest) := by
  rw [skipBlanks, List.dropWhile_append, ← skipBlanks, start]
  rfl

/-- What stands between brackets starts with something that does not close them. -/
theorem start_of_spells {part : Part} (spelled : Spells cs part) :
    ∃ c more, skipBlanks cs = c :: more ∧ c ≠ ']' ∧ c ≠ '\x7d' := by
  induction spelled with
  | bool b => cases b <;> exact ⟨_, _, rfl, by decide, by decide⟩
  | @number sign whole _ _ _ _ signed areDigits =>
    rcases signed with rfl | rfl
    · obtain ⟨d, ds, rfl⟩ := List.exists_cons_of_ne_nil areDigits.1
      have digit := areDigits.2 d List.mem_cons_self
      exact ⟨d, _, skipBlanks_cons (isBlank_digit digit), digit_ne digit rfl, digit_ne digit rfl⟩
    · exact ⟨_, _, rfl, by decide, by decide⟩
  | padded before _ _ ih =>
    obtain ⟨c, more, start, other⟩ := ih
    rw [skipBlanks_append before]
    exact ⟨c, _, skipBlanks_append_of_cons start _, other⟩
  | lastItem _ ih => exact ih
  | nextItem _ _ ih =>
    obtain ⟨c, more, start, other⟩ := ih
    exact ⟨c, _, skipBlanks_append_of_cons start _, other⟩
  | field before =>
    rw [skipBlanks_append before]
    exact ⟨_, _, rfl, by decide, by decide⟩
  | lastField _ ih => exact ih
  | nextField _ _ ih =>
    obtain ⟨c, more, start, other⟩ := ih
    exact ⟨c, _, skipBlanks_append_of_cons start _, other⟩
  | _ => exact ⟨_, _, rfl, by decide, by decide⟩

theorem readValue_array {more : List Char} (start : skipBlanks cs = c :: more) (opened : c ≠ ']') :
    readValue (fuel + 1) ('[' :: cs) = readItems fuel [] cs := by
  rw [readValue.eq_def, ← readItems_skipBlanks]
  simp only [skipBlanks_cons (show isBlank '[' = false from rfl), start]
  split
  · rename_i same
    cases same
  · rename_i same
    exact absurd (List.cons.inj same).1 opened
  · rfl

theorem readValue_object {more : List Char} (start : skipBlanks cs = c :: more)
    (opened : c ≠ '\x7d') : readValue (fuel + 1) ('\x7b' :: cs) = readFields fuel [] none cs := by
  rw [readValue.eq_def, ← readFields_skipBlanks]
  simp only [skipBlanks_cons (show isBlank '\x7b' = false from rfl), start]
  split
  · rename_i same
    exact absurd (List.cons.inj same).1 opened
  · rfl

theorem readValue_digit (digit : Text.isDigit c = true) :
    readValue (fuel + 1) (c :: cs) = readNumber [] (c :: cs) := by
  rw [readValue.eq_def]
  simp only [skipBlanks_cons (isBlank_digit digit)]
  split
  case h_9 same =>
    cases same
    exact if_pos digit
  all_goals
    rename_i same
    cases same
  all_goals cases digit

section Items

variable {j : Json} {before : List Json} {after : List Char}

theorem readItems_last (read : readValue fuel cs = (j, some after))
    (closed : skipBlanks after = ']' :: rest) :
    readItems (fuel + 1) before cs = (array (before.reverse ++ [j]), some rest) := by
  rw [readItems, read]
  simp only [closed, List.reverse_cons]

theorem readItems_next (read : readValue fuel cs = (j, some after))
    (comma : skipBlanks after = ',' :: rest) :
    readItems (fuel + 1) before cs = readItems fuel (j :: before) rest := by
  rw [readItems, read]
  simp only [comma]

end Items

section Fields

variable {j : Json} {fields : List (String × Json)} {before name after : List Char}

/-- A field is read up to what follows its value. -/
theorem readFields_field (blanks : AreBlanks before) (spelled : SpellsText name text)
    (blanks' : AreBlanks after) (enough : name.length ≤ fuel) {left : List Char}
    (read : readValue fuel cs = (j, some left)) :
    (skipBlanks left = '\x7d' :: rest → readFields (fuel + 1) fields none
      (before ++ '"' :: (name ++ '"' :: (after ++ ':' :: cs))) =
        (object (fields.reverse ++ [(String.ofList text, j)]), some rest)) ∧
    (skipBlanks left = ',' :: rest → readFields (fuel + 1) fields none
      (before ++ '"' :: (name ++ '"' :: (after ++ ':' :: cs))) =
        readFields fuel ((String.ofList text, j) :: fields) none rest) := by
  have string : readStringFrom (fuel + 1) {} (name ++ '"' :: (after ++ ':' :: cs)) = _ :=
    readStringFrom_of_spells spelled [] (Nat.lt_succ_of_le enough)
  have quote : skipBlanks (before ++ '"' :: (name ++ '"' :: (after ++ ':' :: cs))) =
      '"' :: (name ++ '"' :: (after ++ ':' :: cs)) :=
    (skipBlanks_append blanks).trans (skipBlanks_cons rfl)
  have colon : skipBlanks (after ++ ':' :: cs) = ':' :: cs :=
    (skipBlanks_append blanks').trans (skipBlanks_cons rfl)
  have named : ({ chars := text.reverse ++ [] } : StringState).text = String.ofList text := by
    rw [StringState.text, List.append_nil, List.reverse_reverse]
  constructor
  · intro closed
    rw [readFields.eq_def]
    simp only [quote, string, colon, read, closed, named]
    exact congrArg (object · , some rest) List.reverse_cons
  · intro comma
    rw [readFields.eq_def]
    simp only [quote, string, colon, read, comma, named]
    rfl

end Fields

/-- What is read from a text, up to what may follow it. -/
def Part.IsReadFrom (cs : List Char) : Part → Prop
  | .value j => ∀ fuel rest, 2 * cs.length < fuel → Ends rest →
      ∃ after, readValue fuel (cs ++ rest) = (j, some after) ∧ skipBlanks after = skipBlanks rest
  | .items js => ∀ fuel before rest, 2 * cs.length + 1 < fuel →
      readItems fuel before (cs ++ ']' :: rest) = (array (before.reverse ++ js), some rest)
  | .field name j => ∀ fuel before rest, 2 * cs.length < fuel →
      readFields (fuel + 1) before none (cs ++ '\x7d' :: rest) =
        (object (before.reverse ++ [(name, j)]), some rest) ∧
      readFields (fuel + 1) before none (cs ++ ',' :: rest) =
        readFields fuel ((name, j) :: before) none rest
  | .fields js => ∀ fuel before rest, 2 * cs.length + 1 < fuel →
      readFields fuel before none (cs ++ '\x7d' :: rest) =
        (object (before.reverse ++ js), some rest)

theorem readValue_append (blanks : AreBlanks cs) (fuel : Nat) (rest : List Char) :
    readValue fuel (cs ++ rest) = readValue fuel rest := by
  rw [← readValue_skipBlanks, skipBlanks_append blanks, readValue_skipBlanks]

/-- Most values are read right up to what follows. -/
theorem isReadFrom_value {j : Json} (read : ∀ fuel rest, 2 * cs.length ≤ fuel → Ends rest →
    readValue (fuel + 1) (cs ++ rest) = (j, some rest)) : (Part.value j).IsReadFrom cs := by
  intro fuel rest enough ends
  obtain ⟨fuel, rfl⟩ := exists_succ enough
  exact ⟨rest, read fuel rest (Nat.le_of_lt_succ enough) ends, rfl⟩

section ReadFrom

variable {j : Json} {name : String} {items : List Json} {fields : List (String × Json)}
  {others before after : List Char}

theorem isReadFrom_string (spelled : SpellsText cs text) :
    (Part.value (string (String.ofList text))).IsReadFrom ('"' :: (cs ++ ['"'])) := by
  refine isReadFrom_value fun fuel rest enough _ => ?_
  rw [List.length_cons, List.length_append] at enough
  have read : readStringFrom (fuel + 1) {} (cs ++ '"' :: rest) = _ :=
    readStringFrom_of_spells spelled [] (by omega)
  rw [List.cons_append, List.append_assoc, List.cons_append, List.nil_append, readValue.eq_def]
  simp only [skipBlanks_cons (show isBlank '"' = false from rfl), readStringValue, read]
  rw [StringState.text, List.append_nil, List.reverse_reverse]
  rfl

theorem isReadFrom_number {sign whole : List Char} (signed : sign = [] ∨ sign = ['-'])
    (areDigits : AreDigits whole) (leading : whole.head? = some '0' → whole = ['0'])
    (spelled : SpellsFraction (.ofWhole whole) fraction m) (power : SpellsExponent m exponent m') :
    (Part.value (numberValue (sign ++ (whole ++ (fraction ++ exponent))) m')).IsReadFrom
      (sign ++ (whole ++ (fraction ++ exponent))) := by
  refine isReadFrom_value fun fuel rest enough ends => ?_
  have read := readNumber_of_spells areDigits leading spelled power ends
  rw [List.append_assoc, List.append_assoc, List.append_assoc]
  rcases signed with rfl | rfl
  · obtain ⟨d, ds, rfl⟩ := List.exists_cons_of_ne_nil areDigits.1
    exact (readValue_digit (areDigits.2 d List.mem_cons_self)).trans (read [])
  · exact read ['-']

theorem isReadFrom_noItems (blanks : AreBlanks cs) :
    (Part.value (array [])).IsReadFrom ('[' :: (cs ++ [']'])) := by
  refine isReadFrom_value fun fuel rest enough _ => ?_
  rw [List.cons_append, List.append_assoc, readValue.eq_def]
  simp only [skipBlanks_cons (show isBlank '[' = false from rfl), skipBlanks_append blanks]
  rfl

theorem isReadFrom_array (spelled : Spells cs (.items items))
    (read : (Part.items items).IsReadFrom cs) :
    (Part.value (array items)).IsReadFrom ('[' :: (cs ++ [']'])) := by
  refine isReadFrom_value fun fuel rest enough _ => ?_
  rw [List.length_cons, List.length_append, List.length_singleton] at enough
  obtain ⟨c, more, start, bracket, -⟩ := start_of_spells spelled
  rw [List.cons_append, List.append_assoc,
    readValue_array (skipBlanks_append_of_cons start _) bracket]
  exact read fuel [] rest (by omega)

theorem isReadFrom_noFields (blanks : AreBlanks cs) :
    (Part.value (object [])).IsReadFrom ('\x7b' :: (cs ++ ['\x7d'])) := by
  refine isReadFrom_value fun fuel rest enough _ => ?_
  rw [List.cons_append, List.append_assoc, readValue.eq_def]
  simp only [skipBlanks_cons (show isBlank '\x7b' = false from rfl), skipBlanks_append blanks]
  rfl

theorem isReadFrom_object (spelled : Spells cs (.fields fields))
    (read : (Part.fields fields).IsReadFrom cs) :
    (Part.value (object fields)).IsReadFrom ('\x7b' :: (cs ++ ['\x7d'])) := by
  refine isReadFrom_value fun fuel rest enough _ => ?_
  rw [List.length_cons, List.length_append, List.length_singleton] at enough
  obtain ⟨c, more, start, -, brace⟩ := start_of_spells spelled
  rw [List.cons_append, List.append_assoc,
    readValue_object (skipBlanks_append_of_cons start _) brace]
  exact read fuel [] rest (by omega)

theorem isReadFrom_padded (blanks : AreBlanks before) (blanks' : AreBlanks after)
    (read : (Part.value j).IsReadFrom cs) :
    (Part.value j).IsReadFrom (before ++ (cs ++ after)) := by
  intro fuel rest enough ends
  rw [List.length_append, List.length_append] at enough
  obtain ⟨left, read, same⟩ := read fuel (after ++ rest) (by omega) (ends_of_blanks blanks' ends)
  rw [List.append_assoc, List.append_assoc, readValue_append blanks]
  exact ⟨left, read, same.trans (skipBlanks_append blanks')⟩

theorem isReadFrom_lastItem (read : (Part.value j).IsReadFrom cs) :
    (Part.items [j]).IsReadFrom cs := by
  intro fuel before rest enough
  obtain ⟨fuel, rfl⟩ := exists_succ enough
  obtain ⟨left, read, same⟩ := read fuel (']' :: rest) (by omega) (ends_cons (by decide))
  exact readItems_last read (same.trans (skipBlanks_cons rfl))

theorem isReadFrom_nextItem (first : (Part.value j).IsReadFrom cs)
    (later : (Part.items items).IsReadFrom others) :
    (Part.items (j :: items)).IsReadFrom (cs ++ ',' :: others) := by
  intro fuel before rest enough
  rw [List.length_append, List.length_cons] at enough
  obtain ⟨fuel, rfl⟩ := exists_succ enough
  obtain ⟨left, read, same⟩ := first fuel (',' :: (others ++ ']' :: rest)) (by omega)
    (ends_cons (by decide))
  rw [List.append_assoc, List.cons_append, readItems_next read (same.trans (skipBlanks_cons rfl)),
    later fuel _ rest (by omega), List.reverse_cons, List.append_assoc]
  rfl

theorem isReadFrom_field (blanks : AreBlanks before) (spelled : SpellsText text u)
    (blanks' : AreBlanks after) (read : (Part.value j).IsReadFrom cs) :
    (Part.field (String.ofList u) j).IsReadFrom
      (before ++ '"' :: (text ++ '"' :: (after ++ ':' :: cs))) := by
  intro fuel fields rest enough
  simp only [List.length_cons, List.length_append] at enough
  obtain ⟨left, last, same⟩ := read fuel ('\x7d' :: rest) (by omega) (ends_cons (by decide))
  obtain ⟨left', next, same'⟩ := read fuel (',' :: rest) (by omega) (ends_cons (by decide))
  simp only [List.append_assoc, List.cons_append]
  exact ⟨(readFields_field blanks spelled blanks' (by omega) last).1
    (same.trans (skipBlanks_cons rfl)),
    (readFields_field blanks spelled blanks' (by omega) next).2
    (same'.trans (skipBlanks_cons rfl))⟩

theorem isReadFrom_lastField (read : (Part.field name j).IsReadFrom cs) :
    (Part.fields [(name, j)]).IsReadFrom cs := by
  intro fuel before rest enough
  obtain ⟨fuel, rfl⟩ := exists_succ enough
  exact (read fuel before rest (by omega)).1

theorem isReadFrom_nextField (first : (Part.field name j).IsReadFrom cs)
    (later : (Part.fields fields).IsReadFrom others) :
    (Part.fields ((name, j) :: fields)).IsReadFrom (cs ++ ',' :: others) := by
  intro fuel before rest enough
  rw [List.length_append, List.length_cons] at enough
  obtain ⟨fuel, rfl⟩ := exists_succ enough
  rw [List.append_assoc, List.cons_append,
    (first fuel before (others ++ '\x7d' :: rest) (by omega)).2, later fuel _ rest (by omega),
    List.reverse_cons, List.append_assoc]
  rfl

end ReadFrom

theorem isReadFrom_of_spells {part : Part} (spelled : Spells cs part) : part.IsReadFrom cs := by
  induction spelled with
  | null => exact isReadFrom_value fun _ _ _ _ => rfl
  | bool b => cases b <;> exact isReadFrom_value fun _ _ _ _ => rfl
  | string spelled => exact isReadFrom_string spelled
  | number signed areDigits leading spelled power =>
    exact isReadFrom_number signed areDigits leading spelled power
  | noItems blanks => exact isReadFrom_noItems blanks
  | array spelled ih => exact isReadFrom_array spelled ih
  | noFields blanks => exact isReadFrom_noFields blanks
  | object spelled ih => exact isReadFrom_object spelled ih
  | padded blanks blanks' _ ih => exact isReadFrom_padded blanks blanks' ih
  | lastItem _ ih => exact isReadFrom_lastItem ih
  | nextItem _ _ ih ihs => exact isReadFrom_nextItem ih ihs
  | field blanks spelled blanks' _ ih => exact isReadFrom_field blanks spelled blanks' ih
  | lastField _ ih => exact isReadFrom_lastField ih
  | nextField _ _ ih ihs => exact isReadFrom_nextField ih ihs

/-- A text that spells a value is read as it, and leaves nothing but blanks. -/
theorem ofText_of_spells {s : String} {j : Json} (spelled : Spells s.toList (.value j)) :
    ∃ after, ofText s = (j, some after) ∧ skipBlanks after = [] := by
  obtain ⟨after, read, same⟩ := isReadFrom_of_spells spelled (2 * s.toList.length + 1) []
    (Nat.lt_succ_self _) nofun
  rw [List.append_nil] at read
  exact ⟨after, read, same⟩

end PrintRegistry.Json
