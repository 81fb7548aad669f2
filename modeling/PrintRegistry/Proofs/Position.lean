import Mathlib.Data.List.DropRight
import PrintRegistry.Text.Position

/-!
Places in a text and its bytes. The line of a byte is one more than the line ends before it, and
its column one more than the bytes since the last of them. Such a place turns back into the byte.
The place of the end of a text counts as a place too, though no byte stands there: it is the only
one with a span that is not inside the text. A column whose offset has no room in a word leads
back into the text, if the program does not stop over it.
-/

namespace PrintRegistry.Text

/-- The bytes of a text in UTF-8. -/
def bytes (cs : List Char) : List UInt8 :=
  cs.flatMap String.utf8EncodeChar

/-- The byte that ends a line. -/
def lineEnd : UInt8 := 10

/-- The bytes after the last line end. -/
def lastLine (bs : List UInt8) : List UInt8 :=
  bs.rtakeWhile (· != lineEnd)

/-- The line of the byte that has `p` bytes before it. -/
def lineAt (cs : List Char) (p : Nat) : Nat :=
  1 + ((bytes cs).take p).count lineEnd

/-- The column of the byte that has `p` bytes before it. -/
def columnAt (cs : List Char) (p : Nat) : Nat :=
  1 + (lastLine ((bytes cs).take p)).length

/-- A span ends within a text. -/
def Span.IsInside (s : Span) (cs : List Char) : Prop :=
  s.offset + s.length ≤ (bytes cs).length

/-- What a text has after its first lines. -/
def afterLines : Nat → List Char → List Char
  | 0, cs => cs
  | _ + 1, [] => []
  | count + 1, c :: cs => afterLines (if c = '\n' then count else count + 1) cs

theorem length_bytes (cs : List Char) : (bytes cs).length = size cs := by
  have sizes : size cs = (cs.map Char.utf8Size).sum := by
    rw [size, List.sum_eq_foldl, List.foldl_map]
  simp only [sizes, bytes, List.length_flatMap, String.length_utf8EncodeChar]

theorem bytes_cons (c : Char) (cs : List Char) :
    bytes (c :: cs) = String.utf8EncodeChar c ++ bytes cs := by
  rw [bytes, List.flatMap_cons, bytes]

theorem size_cons (c : Char) (cs : List Char) : size (c :: cs) = c.utf8Size + size cs := by
  rw [← length_bytes, bytes_cons, List.length_append, String.length_utf8EncodeChar, length_bytes]

/-- No byte of another character looks like a line end. -/
theorem lineEnd_mem_utf8EncodeChar {c : Char} :
    lineEnd ∈ String.utf8EncodeChar c ↔ c = '\n' := by
  have byte : ∀ n : Nat, lineEnd = UInt8.ofNat n ↔ n % 256 = 10 := by
    intro n
    rw [lineEnd, ← UInt8.toNat_inj]
    simp [eq_comm]
  have character : c = '\n' ↔ c.val.toNat = 10 := by
    rw [Char.ext_iff, ← UInt32.toNat_inj]
    rfl
  rw [String.utf8EncodeChar, character]
  repeat' split
  all_goals
    simp only [List.mem_cons, List.not_mem_nil, or_false, byte]
    omega

section LastLine

variable {bs : List UInt8}

theorem lastLine_of_notMem (none : lineEnd ∉ bs) : lastLine bs = bs := by
  apply List.rtakeWhile_eq_self_iff.mpr
  intro b member
  rw [bne_iff_ne]
  exact fun same => none (same ▸ member)

theorem lastLine_append (before : List UInt8) (ended : lineEnd ∈ bs) :
    lastLine (before ++ bs) = lastLine bs := by
  have stops : (bs.reverse.takeWhile (· != lineEnd)).length ≠ bs.reverse.length := by
    intro whole
    have none := List.takeWhile_eq_self_iff.mp
      ((List.takeWhile_prefix (· != lineEnd)).eq_of_length whole)
    exact absurd (none lineEnd (List.mem_reverse.mpr ended)) (by decide)
  rw [lastLine, List.rtakeWhile, List.reverse_append, List.takeWhile_append, if_neg stops]
  rfl

theorem lastLine_lineEnd (bs : List UInt8) : lastLine (lineEnd :: bs) = lastLine bs := by
  by_cases ended : lineEnd ∈ bs
  · exact lastLine_append [lineEnd] ended
  · have own : ∀ b ∈ bs.reverse, (b != lineEnd) = true := by
      intro b member
      rw [bne_iff_ne]
      exact fun same => ended (same ▸ List.mem_reverse.mp member)
    rw [lastLine_of_notMem ended, lastLine, List.rtakeWhile, List.reverse_cons,
      List.takeWhile_append_of_pos own]
    simp

end LastLine

/-- If there is a line end among the first bytes of a text that begins with another character,
the character is there as a whole, and the line end comes after it. -/
theorem take_bytes_of_lineEnd {c : Char} {cs : List Char} {p : Nat} (other : c ≠ '\n')
    (ended : lineEnd ∈ (bytes (c :: cs)).take p) :
    ∃ q, p = c.utf8Size + q ∧ lineEnd ∈ (bytes cs).take q ∧
      (bytes (c :: cs)).take p = String.utf8EncodeChar c ++ (bytes cs).take q := by
  have free : lineEnd ∉ String.utf8EncodeChar c := fun member =>
    other (lineEnd_mem_utf8EncodeChar.mp member)
  rw [bytes_cons] at ended
  have whole : c.utf8Size ≤ p := by
    by_contra short
    rw [List.take_append_of_le_length] at ended
    · exact free (List.mem_of_mem_take ended)
    · rw [String.length_utf8EncodeChar]
      omega
  obtain ⟨q, rfl⟩ := Nat.exists_eq_add_of_le whole
  have parts : (String.utf8EncodeChar c ++ bytes cs).take (c.utf8Size + q) =
      String.utf8EncodeChar c ++ (bytes cs).take q := by
    rw [← String.length_utf8EncodeChar, List.take_length_add_append]
  rw [parts] at ended
  refine ⟨q, rfl, (List.mem_append.mp ended).resolve_left free, ?_⟩
  rw [bytes_cons, parts]

/-- The lines before a byte and what its own line has before it are all that comes before it. -/
theorem linesSize_add_lastLine (cs : List Char) {p : Nat} (within : p ≤ (bytes cs).length) :
    linesSize (((bytes cs).take p).count lineEnd) cs + (lastLine ((bytes cs).take p)).length =
      p := by
  induction cs generalizing p with
  | nil =>
    obtain rfl : p = 0 := by simpa [bytes] using within
    rfl
  | cons c cs ih =>
    by_cases ends : c = '\n'
    · have split : bytes (c :: cs) = lineEnd :: bytes cs := by
        rw [bytes_cons, ends]
        rfl
      rw [split] at within ⊢
      cases p with
      | zero => rfl
      | succ q =>
        have rest := ih (Nat.le_of_succ_le_succ within)
        have unit : c.utf8Size = 1 := ends ▸ rfl
        rw [List.take_succ_cons, List.count_cons_self, lastLine_lineEnd, linesSize, if_pos ends]
        omega
    · by_cases ended : lineEnd ∈ (bytes (c :: cs)).take p
      · obtain ⟨q, rfl, later, parts⟩ := take_bytes_of_lineEnd ends ended
        have free : (String.utf8EncodeChar c).count lineEnd = 0 :=
          List.count_eq_zero.mpr fun member => ends (lineEnd_mem_utf8EncodeChar.mp member)
        obtain ⟨count, counted⟩ := Nat.exists_eq_add_one_of_ne_zero
          (List.count_pos_iff.mpr later).ne'
        rw [bytes_cons, List.length_append, String.length_utf8EncodeChar] at within
        have rest := ih (p := q) (by omega)
        rw [counted] at rest
        rw [parts, List.count_append, free, Nat.zero_add, counted, linesSize, if_neg ends,
          lastLine_append _ later]
        omega
      · rw [List.count_eq_zero.mpr ended, linesSize, lastLine_of_notMem ended, Nat.zero_add,
          List.length_take_of_le within]

/-- A sum of words is the sum of what they stand for, less the carry. -/
theorem toNat_add_toUInt64 (m n : Nat) :
    (m.toUInt64 + n.toUInt64).toNat = (m + n) % UInt64.size := by
  rw [UInt64.toNat_add, UInt64.toNat_ofNat', UInt64.toNat_ofNat', ← Nat.add_mod]

theorem offset?_succ (cs : List Char) (before column : Nat) : offset? cs (before + 1) column =
    if (linesSize before cs + (column - 1)) % UInt64.size ≤ size cs then
      some ((linesSize before cs + (column - 1)) % UInt64.size)
    else none := by
  rw [offset?, toNat_add_toUInt64]

/-- The place of a byte, or of the end of the text, turns back into the number of bytes
before it, and the sum for it has room in a word, as the number has. -/
theorem offset?_place (cs : List Char) {p : UInt64} (within : p.toNat ≤ (bytes cs).length) :
    offset? cs (lineAt cs p.toNat) (columnAt cs p.toNat) = some p.toNat ∧
      exceedsWord cs (lineAt cs p.toNat) (columnAt cs p.toNat) = false := by
  have before := linesSize_add_lastLine cs within
  rw [length_bytes] at within
  rw [lineAt, columnAt, Nat.add_comm 1, Nat.add_comm 1, offset?_succ, exceedsWord,
    Nat.add_sub_cancel, before, Nat.mod_eq_of_lt p.toNat_lt_size, if_pos within]
  exact ⟨rfl, decide_eq_false (Nat.not_le_of_lt p.toNat_lt_size)⟩

/-- A byte after a character of two bytes, an empty line and another byte. -/
theorem offset?_place_of_accent :
    5 < (bytes "é\n\nab".toList).length ∧ lineAt "é\n\nab".toList 5 = 3 ∧
      columnAt "é\n\nab".toList 5 = 2 ∧
      offset? "é\n\nab".toList (lineAt "é\n\nab".toList 5) (columnAt "é\n\nab".toList 5) = some 5 :=
  ⟨by decide, by decide, by decide, (offset?_place _ (p := 5) (by decide)).1⟩

theorem linesSize_add_size_afterLines (count : Nat) (cs : List Char) :
    linesSize count cs + size (afterLines count cs) = size cs := by
  fun_induction linesSize count cs with
  | case1 cs => rw [afterLines, Nat.zero_add]
  | case2 => rfl
  | case3 count c cs ih =>
    rw [afterLines, size_cons]
    omega

theorem exceedsWord_succ_iff {cs : List Char} {before column : Nat} :
    exceedsWord cs (before + 1) column = true ↔
      UInt64.size ≤ linesSize before cs + (column - 1) :=
  decide_eq_true_iff

/-- A place on some line leads into the text, to its end or beyond it, if the sum for it has room
in a word. What is left of another sum leads to before the line. -/
theorem spanIn_cases (checked : Bool) {cs : List Char} (fits : size cs < UInt64.size)
    (before : Nat) (column : UInt64) :
    let sum := linesSize before cs + (column.toNat - 1)
    let place := spanIn checked cs (before + 1) column.toNat
    UInt64.size ≤ sum ∧ checked = true ∧ place = .error .overflow ∨
    UInt64.size ≤ sum ∧ checked = false ∧
      (∃ offset < linesSize before cs, place = .ok (some ⟨offset, 1⟩)) ∨
    sum ≤ size cs ∧ place = .ok (some ⟨sum, 1⟩) ∨
    size cs < sum ∧ sum < UInt64.size ∧ place = .ok none := by
  intro sum place
  by_cases carries : exceedsWord cs (before + 1) column.toNat = true
  · have large := exceedsWord_succ_iff.mp carries
    cases checked with
    | true => exact .inl ⟨large, rfl, by simp [place, spanIn, carries]⟩
    | false =>
      have word := column.toNat_lt_size
      have parts := linesSize_add_size_afterLines before cs
      have left : sum % UInt64.size < linesSize before cs := by
        rw [Nat.mod_eq_sub_mod large, Nat.mod_eq_of_lt] <;> omega
      have inside : sum % UInt64.size ≤ size cs := by omega
      exact .inr (.inl ⟨large, rfl, sum % UInt64.size, left,
        by simp [place, spanIn, spanAt?, offset?_succ, sum, inside]⟩)
  · have small := Nat.not_le.mp (mt exceedsWord_succ_iff.mpr carries)
    have found : place = .ok (if sum ≤ size cs then some ⟨sum, 1⟩ else none) := by
      simp only [place, spanIn, carries, Bool.and_false, Bool.false_eq_true, if_false, spanAt?,
        offset?_succ, Nat.mod_eq_of_lt small]
      split <;> rfl
    by_cases within : sum ≤ size cs
    · exact .inr (.inr (.inl ⟨within, by rw [found, if_pos within]⟩))
    · exact .inr (.inr (.inr ⟨Nat.not_le.mp within, small, by rw [found, if_neg within]⟩))

/-- What becomes of a place in a text that has room in memory. Its span is inside the text as
long as the text goes on there; the place of the end has the span right after it. If the sum for
a place has no room in a word, a program that checks its sums stops, and in another one the place
has a span inside the text as well, though the text does not go on there. No other place has a
span. -/
theorem spanIn_inside_or_after (checked : Bool) {cs : List Char}
    (fits : (bytes cs).length < UInt64.size) (line column : UInt64) :
    let place := spanIn checked cs line.toNat column.toNat
    let rest := (bytes (afterLines (line.toNat - 1) cs)).length
    let carries := exceedsWord cs line.toNat column.toNat = true
    ((∃ s, place = .ok (some s) ∧ s.IsInside cs) ↔
      0 < line.toNat ∧ (column.toNat - 1 < rest ∨ checked = false ∧ carries)) ∧
    (place = .ok (some ⟨(bytes cs).length, 1⟩) ↔ 0 < line.toNat ∧ column.toNat - 1 = rest) ∧
    (place = .ok none ↔ line.toNat = 0 ∨ rest < column.toNat - 1 ∧ ¬ carries) ∧
    (place = .error .overflow ↔ checked = true ∧ carries) := by
  simp only [Span.IsInside, length_bytes] at fits ⊢
  cases line.toNat with
  | zero => simp [spanIn, exceedsWord, spanAt?, offset?]
  | succ before =>
    have parts := linesSize_add_size_afterLines before cs
    simp only [exceedsWord_succ_iff, Nat.add_sub_cancel]
    obtain ⟨large, rfl, found⟩ | ⟨large, rfl, offset, inside, found⟩ | ⟨within, found⟩ |
      ⟨beyond, small, found⟩ := spanIn_cases checked fits before column
    all_goals
      simp [found]
      omega

/-- The end of a text that ends after a line end, and a column whose offset carries. -/
theorem spanIn_of_brace :
    (bytes "\x7b\n".toList).length < UInt64.size ∧
      spanIn true "\x7b\n".toList 2 0 = .ok (some ⟨2, 1⟩) ∧
      spanIn true "\x7b\n".toList 2 (UInt64.size - 1) = .error .overflow ∧
      ∃ s, spanIn false "\x7b\n".toList 2 (UInt64.size - 1) = .ok (some s) ∧
        s.IsInside "\x7b\n".toList := by
  have fits : (bytes "\x7b\n".toList).length < UInt64.size := by decide
  refine ⟨fits, ?_, ?_, ?_⟩
  · exact (spanIn_inside_or_after true fits 2 0).2.1.mpr (by decide)
  · exact (spanIn_inside_or_after true fits 2 (-1)).2.2.2.mpr (by decide)
  · exact (spanIn_inside_or_after false fits 2 (-1)).1.mpr (by decide)

/-- A text that ends after a line end has a span for its end, which is not inside it. -/
theorem spanAt?_not_inside : ¬ ∀ (cs : List Char) (line column : Nat) (s : Span),
    spanAt? cs line column = some s → s.IsInside cs := by
  intro claimed
  have inside := claimed "\x7b\n".toList 2 0 ⟨2, 1⟩ (by decide)
  rw [Span.IsInside] at inside
  exact absurd inside (by decide)

end PrintRegistry.Text
