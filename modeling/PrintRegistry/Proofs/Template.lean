import Mathlib.Data.List.Basic
import PrintRegistry.Text.Template

/-!
Instances of templates. A text that is read as an instance of a template is one: it is put
together from one of the options of each choice and a run of fitting characters for each
blank. A text is not read, then, if it ends otherwise than the template, begins otherwise,
or has more characters of some class than the template has. A run is read in full if the
rest of the template does not begin inside it.
-/

namespace PrintRegistry.Text

section Runs

variable {α : Type} {fits : Char → Bool} {next : List Char → Option α} {least : Nat}
  {run rest cs : List Char} {a : α}

/-- A run is taken off the text, and `next` accepts what is left. -/
theorem longestRun?_eq_some (h : longestRun? fits next least cs = some (run, a)) :
    least ≤ run.length ∧ (∀ c ∈ run, fits c = true) ∧
      ∃ rest, cs = run ++ rest ∧ next rest = some a := by
  fun_induction longestRun? fits next least cs generalizing run with
  | case1 => cases h
  | case2 least c cs fit ih =>
    obtain ⟨⟨inner, _⟩, found, same⟩ := Option.map_eq_some_iff.mp h
    obtain ⟨rfl, rfl⟩ := Prod.mk.inj same
    obtain ⟨long, full, rest, rfl, accepted⟩ := ih found
    exact ⟨Nat.succ_le_succ long, List.forall_mem_cons.mpr ⟨fit, full⟩, rest, rfl, accepted⟩
  | case3 => cases h
  | case4 =>
    obtain ⟨_, accepted, same⟩ := Option.map_eq_some_iff.mp h
    obtain ⟨rfl, rfl⟩ := Prod.mk.inj same
    exact ⟨Nat.le_refl 0, List.forall_mem_nil _, [], rfl, accepted⟩
  | case5 c cs _ inner _ taken =>
    rename_i ih
    cases h
    obtain ⟨fit, taken⟩ := Option.ite_none_right_eq_some.mp taken
    obtain ⟨long, full, rest, rfl, accepted⟩ := ih taken
    exact ⟨Nat.zero_le _, List.forall_mem_cons.mpr ⟨fit, full⟩, rest, rfl, accepted⟩
  | case6 c cs =>
    obtain ⟨_, accepted, same⟩ := Option.map_eq_some_iff.mp h
    obtain ⟨rfl, rfl⟩ := Prod.mk.inj same
    exact ⟨Nat.le_refl 0, List.forall_mem_nil _, c :: cs, rfl, accepted⟩

/-- A run is taken off in full if `next` accepts what is left and would accept nothing
after a longer run. -/
theorem longestRun?_append (long : least ≤ run.length) (full : ∀ c ∈ run, fits c = true)
    (accepted : next rest = some a)
    (longest : ∀ c more later, rest = c :: more ++ later → fits c = true → next later = none) :
    longestRun? fits next least (run ++ rest) = some (run, a) := by
  induction run generalizing least with
  | nil =>
    obtain rfl : least = 0 := Nat.le_zero.mp long
    cases rest with
    | nil => simp [longestRun?, accepted]
    | cons c cs =>
      cases fit : fits c with
      | false => simp [longestRun?, fit, accepted]
      | true =>
        cases longer : longestRun? fits next 0 cs with
        | none => simp [longestRun?, longer, accepted]
        | some taken =>
          obtain ⟨-, -, later, rfl, also⟩ := longestRun?_eq_some longer
          rw [longest c taken.1 later rfl fit] at also
          cases also
  | cons c run ih =>
    obtain ⟨fit, full⟩ := List.forall_mem_cons.mp full
    cases least with
    | zero => simp [longestRun?, fit, ih (Nat.zero_le _) full]
    | succ least => simp [longestRun?, fit, ih (Nat.le_of_succ_le_succ long) full]

/-- A run is taken off in full before a character that does not fit. -/
theorem longestRun?_append_cons {c : Char} (long : least ≤ run.length)
    (full : ∀ c ∈ run, fits c = true) (other : fits c = false)
    (accepted : next (c :: cs) = some a) :
    longestRun? fits next least (run ++ c :: cs) = some (run, a) := by
  apply longestRun?_append long full accepted
  intro d more later same fit
  obtain ⟨rfl, -⟩ := List.cons.inj same
  rw [other] at fit
  cases fit

/-- A run is taken off in full before an ending if nothing shorter is accepted. -/
theorem longestRun?_ending (long : least ≤ run.length) (full : ∀ c ∈ run, fits c = true)
    (accepted : next rest = some a)
    (short : ∀ later : List Char, later.length < rest.length → next later = none) :
    longestRun? fits next least (run ++ rest) = some (run, a) := by
  apply longestRun?_append long full accepted
  rintro c more later rfl -
  apply short
  simp only [List.length_append, List.length_cons]
  omega

end Runs

namespace Template

section Reading

variable {α : Type} {next : List Char → Option α} {t : Template} {o : String} {cs : List Char}

theorem first?_fixed : first? next (.fixed o :: t) (o.toList ++ cs) = first? next t cs := by
  have here : o.toList.isPrefixOf? (o.toList ++ cs) = some cs :=
    List.isPrefixOf?_eq_some_iff_append_eq.mpr rfl
  simp [first?, Piece.fixed, here]

theorem first?_optional_present {read : List (List Char) × α} (h : first? next t cs = some read) :
    first? next (.optional o :: t) (o.toList ++ cs) = some read := by
  have here : o.toList.isPrefixOf? (o.toList ++ cs) = some cs :=
    List.isPrefixOf?_eq_some_iff_append_eq.mpr rfl
  simp [first?, Piece.optional, here, h]

theorem first?_optional_absent (absent : ¬ o.toList <+: cs) :
    first? next (.optional o :: t) cs = first? next t cs := by
  have elsewhere : o.toList.isPrefixOf? cs = none := by
    rw [Option.eq_none_iff_forall_ne_some]
    intro rest found
    exact absent ⟨rest, List.isPrefixOf?_eq_some_iff_append_eq.mp found⟩
  have empty : ([] : List Char).isPrefixOf? cs = some cs := by cases cs <;> rfl
  simp [first?, Piece.optional, elsewhere, empty]

end Reading

/-- Accepts the end of a text only. -/
def atEnd (rest : List Char) : Option Unit :=
  if rest.isEmpty then some () else none

theorem readWhole?_eq_some {t : Template} {cs : List Char} {filled : List (List Char)}
    (h : t.first? atEnd cs = some (filled, ())) : t.readWhole? cs = some filled :=
  congrArg (Option.map Prod.fst) h

/-- A text put together from a template by filling in its blanks. -/
inductive Fills : Template → List (List Char) → List Char → Prop where
  | done : Fills [] [] []
  | choice {options : List String} {t : Template} {filled : List (List Char)} {o : String}
      {cs : List Char} (listed : o ∈ options) (inner : Fills t filled cs) :
      Fills (.choice options :: t) filled (o.toList ++ cs)
  | blank {least : Nat} {fits : Char → Bool} {t : Template} {filled : List (List Char)}
      {run cs : List Char} (long : least ≤ run.length) (full : ∀ c ∈ run, fits c = true)
      (inner : Fills t filled cs) :
      Fills (.blank least fits :: t) (run :: filled) (run ++ cs)

/-- Only instances are read. -/
theorem first?_eq_some {α : Type} {next : List Char → Option α} {t : Template} {cs : List Char}
    {filled : List (List Char)} {a : α} (h : first? next t cs = some (filled, a)) :
    ∃ text rest, cs = text ++ rest ∧ Fills t filled text ∧ next rest = some a := by
  induction t generalizing cs filled with
  | nil =>
    obtain ⟨_, accepted, same⟩ := Option.map_eq_some_iff.mp h
    obtain ⟨rfl, rfl⟩ := Prod.mk.inj same
    exact ⟨[], cs, rfl, .done, accepted⟩
  | cons piece t ih =>
    cases piece with
    | choice options =>
      obtain ⟨o, listed, found⟩ := List.exists_of_findSome?_eq_some h
      obtain ⟨left, starts, inner⟩ := Option.bind_eq_some_iff.mp found
      obtain rfl := List.isPrefixOf?_eq_some_iff_append_eq.mp starts
      obtain ⟨text, rest, rfl, fills, accepted⟩ := ih inner
      exact ⟨o.toList ++ text, rest, (List.append_assoc ..).symm, .choice listed fills, accepted⟩
    | blank least fits =>
      obtain ⟨⟨run, others, _⟩, found, same⟩ := Option.map_eq_some_iff.mp h
      obtain ⟨rfl, rfl⟩ := Prod.mk.inj same
      obtain ⟨long, full, left, rfl, inner⟩ := longestRun?_eq_some found
      obtain ⟨text, rest, rfl, fills, accepted⟩ := ih inner
      exact ⟨run ++ text, rest, (List.append_assoc ..).symm, .blank long full fills, accepted⟩

theorem fills_of_readWhole? {t : Template} {filled : List (List Char)} {cs : List Char}
    (h : t.readWhole? cs = some filled) : Fills t filled cs := by
  obtain ⟨⟨_, _⟩, read, rfl⟩ := Option.map_eq_some_iff.mp h
  obtain ⟨text, rest, rfl, fills, all⟩ := first?_eq_some read
  obtain ⟨none, -⟩ := Option.ite_none_right_eq_some.mp all
  rw [List.isEmpty_iff.mp none, List.append_nil]
  exact fills

/-- The texts with which instances end: the last options, if the template ends with a
choice. -/
def endings : Template → List String
  | [] => [""]
  | [.choice options] => options
  | _ :: t => endings t

theorem endings_cons {piece : Piece} {t : Template} (some : t ≠ []) :
    endings (piece :: t) = endings t := by
  cases t with
  | nil => exact absurd rfl some
  | cons _ _ => cases piece <;> rfl

theorem Fills.ending {t : Template} {filled : List (List Char)} {cs : List Char}
    (h : Fills t filled cs) : ∃ o ∈ t.endings, o.toList <:+ cs := by
  induction h with
  | done => exact ⟨"", List.mem_singleton_self _, List.nil_suffix⟩
  | @choice options t filled o cs listed inner ih =>
    by_cases none : t = []
    · subst none
      cases inner
      exact ⟨o, listed, by simp⟩
    · obtain ⟨last, member, ends⟩ := ih
      rw [endings_cons none]
      exact ⟨last, member, ends.trans (List.suffix_append ..)⟩
  | @blank least fits t filled run cs long full inner ih =>
    by_cases none : t = []
    · subst none
      exact ⟨"", List.mem_singleton_self _, List.nil_suffix⟩
    · obtain ⟨last, member, ends⟩ := ih
      rw [endings_cons none]
      exact ⟨last, member, ends.trans (List.suffix_append ..)⟩

/-- Nothing is read from a text that is too short for an ending. -/
theorem first?_short {α : Type} {next : List Char → Option α} {t : Template} {cs : List Char}
    (short : ∀ o ∈ t.endings, cs.length < o.toList.length) : first? next t cs = none := by
  cases read : first? next t cs with
  | none => rfl
  | some filled =>
    obtain ⟨text, rest, rfl, fills, -⟩ := first?_eq_some read
    obtain ⟨o, listed, ends⟩ := fills.ending
    have long := ends.length_le
    have shorter := short o listed
    rw [List.length_append] at shorter
    omega

/-- A blank before the last text of a template is filled in full. -/
theorem first?_blank_ending {α : Type} {next : List Char → Option α} {least : Nat}
    {fits : Char → Bool} {t : Template} {o : String} {run : List Char} {filled : List (List Char)}
    {a : α} (long : least ≤ run.length) (full : ∀ c ∈ run, fits c = true)
    (last : t.endings = [o]) (left : first? next t o.toList = some (filled, a)) :
    first? next (.blank least fits :: t) (run ++ o.toList) = some (run :: filled, a) := by
  rw [first?, longestRun?_ending long full left]
  · rfl
  · intro later short
    apply first?_short
    rw [last]
    exact List.forall_mem_singleton.mpr short

/-- The most characters of a class that the fixed texts of a template have. -/
def most (p : Char → Bool) : Template → Nat
  | [] => 0
  | .choice options :: t => (options.map (·.toList.countP p)).max?.getD 0 + most p t
  | .blank .. :: t => most p t

/-- Whether no character of a class fits a blank. -/
def keepsOut (p : Char → Bool) (t : Template) : Prop :=
  ∀ least fits, .blank least fits ∈ t → ∀ c, fits c = true → p c = false

/-- An instance has no more characters of a class than the template, unless they are in its
blanks. -/
theorem Fills.countP_le {p : Char → Bool} {t : Template} {filled : List (List Char)}
    {cs : List Char} (h : Fills t filled cs) (out : t.keepsOut p) : cs.countP p ≤ t.most p := by
  induction h with
  | done => exact Nat.zero_le _
  | choice listed inner ih =>
    have rest := ih fun least fits member => out least fits (List.mem_cons_of_mem _ member)
    rw [List.countP_append, most]
    exact Nat.add_le_add (List.le_max?_getD_of_mem (List.mem_map_of_mem listed)) rest
  | blank long full inner ih =>
    have rest := ih fun least fits member => out least fits (List.mem_cons_of_mem _ member)
    have none := List.countP_eq_zero.mpr fun c member =>
      Bool.not_eq_true _ ▸ out _ _ List.mem_cons_self c (full c member)
    rw [List.countP_append, none, Nat.zero_add]
    exact rest

/-- A text is found where it begins with an instance. -/
theorem search?_eq_some {t : Template} {filled : List (List Char)} {cs rest : List Char}
    (h : t.readBeginning? cs = some (filled, rest)) : t.search? cs = some filled := by
  cases cs with
  | nil => simp [search?, searchFrom?, h]
  | cons c cs => simp [search?, searchFrom?, h]

end Template

end PrintRegistry.Text
