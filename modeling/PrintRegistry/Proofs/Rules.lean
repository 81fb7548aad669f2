import PrintRegistry.Proofs.Text
import PrintRegistry.Usage

/-!
The rules of inference are apart. A grammar tells by the word it begins with, and by whether it
is a choice, which rule may apply to it, and no two rules ask for the same. So their order decides
nothing, unless the name of an attribute says that it is a block of keys and values: the rule for
these does not look at the grammar, and has to come before the one for octet strings.
-/

namespace PrintRegistry

/-- A list of at most one entry has no other order. -/
theorem eq_of_perm {α : Type} {xs ys : List α} (order : xs.Perm ys) (few : ys.length ≤ 1) :
    xs = ys := by
  match ys with
  | [] => exact List.perm_nil.mp order
  | [_] => exact List.perm_singleton.mp order
  | _ :: _ :: _ => exact absurd few (by simp)

namespace Inference

/-- Whether a word goes on with a character. A bound begins with a parenthesis, and a choice goes
on after a space. -/
def isInWord (c : Char) : Bool :=
  c != '(' && c != ' '

/-- The word that a grammar begins with, and whether the grammar is a choice. -/
def opening (cs : List Char) : List Char × Bool :=
  (cs.takeWhile isInWord, cs.contains '|')

/-- A text that is one word. -/
def IsWord (word : String) : Prop :=
  ∀ c ∈ word.toList, isInWord c = true ∧ c ≠ '|'

-- The characters of the word are looked at, not all characters.
instance (word : String) : Decidable (IsWord word) :=
  List.decidableBAll _ word.toList

namespace Condition

/-- The words of a condition after which a bound may stand. -/
def words : Condition → List String
  | sized base => [base]
  | limited base => [base]
  | limitedChoice first second => [first, second]
  | _ => []

/-- How the grammars begin that a condition holds of, if it looks at the grammar. -/
def opening? : Condition → Option (List Char × Bool)
  | grammar text => some (opening text.toList)
  | sized base => some (base.toList, false)
  | limited base => some (base.toList, false)
  | limitedChoice first _ => some (first.toList, true)
  | names _ => none

end Condition

section Bounds

variable {base : String} {least : Nat} {fits : Char → Bool} {cs : List Char}

/-- A bound is in parentheses, so it does not go on with the word before it. -/
theorem isBounded_eq (h : isBounded base least fits cs = true) :
    ∃ bound, cs = base.toList ++ bound ∧ (∀ c ∈ bound.head?, c = '(') ∧
      ∀ c ∈ bound, c = '(' ∨ c = ')' ∨ fits c = true := by
  rw [isBounded] at h
  split at h
  · rename_i bound starts
    refine ⟨bound, (List.isPrefixOf?_eq_some_iff_append_eq.mp starts).symm, ?_⟩
    rw [isBound.eq_def] at h
    split at h
    · exact ⟨nofun, nofun⟩
    · rename_i rest
      simp only [Bool.and_eq_true, beq_iff_eq, List.all_eq_true] at h
      obtain ⟨inner, rfl⟩ := List.getLast?_eq_some_iff.mp h.1.1
      rw [List.dropLast_concat] at h
      refine ⟨fun c first => (Option.some.inj first).symm, fun c member => ?_⟩
      rcases List.mem_cons.mp member with here | later
      · exact Or.inl here
      · rcases List.mem_append.mp later with inside | last
        · exact Or.inr (Or.inr (h.1.2 c inside))
        · exact Or.inr (Or.inl (List.mem_singleton.mp last))
    · cases h
  · cases h

/-- Whatever comes after a space does not change the word that a bounded text begins with. -/
theorem takeWhile_of_isBounded (word : IsWord base) (h : isBounded base least fits cs = true)
    {rest : List Char} (apart : ∀ c ∈ rest.head?, c = ' ') :
    (cs ++ rest).takeWhile isInWord = base.toList := by
  obtain ⟨bound, rfl, starts, -⟩ := isBounded_eq h
  rw [List.append_assoc]
  refine Text.takeWhile_append_stop (fun c member => (word c member).1) fun c first => ?_
  rw [List.head?_append, Option.mem_def, Option.or_eq_some_iff] at first
  rcases first with here | ⟨-, later⟩
  · rw [starts c here]
    rfl
  · rw [apart c later]
    rfl

theorem not_mem_of_isBounded (word : IsWord base) (plain : fits '|' = false)
    (h : isBounded base least fits cs = true) : '|' ∉ cs := by
  obtain ⟨bound, rfl, -, inside⟩ := isBounded_eq h
  intro member
  rcases List.mem_append.mp member with before | within
  · exact (word _ before).2 rfl
  · rcases inside _ within with bar | bar | fit
    · exact absurd bar (by decide)
    · exact absurd bar (by decide)
    · rw [plain] at fit
      cases fit

theorem opening_of_isBounded (word : IsWord base) (plain : fits '|' = false)
    (h : isBounded base least fits cs = true) : opening cs = (base.toList, false) := by
  have begins : (cs ++ []).takeWhile isInWord = base.toList :=
    takeWhile_of_isBounded word h nofun
  rw [List.append_nil] at begins
  rw [opening, begins, List.contains_eq_mem,
    decide_eq_false (not_mem_of_isBounded word plain h)]

theorem opening_of_choice (word : IsWord base) (h : isBounded base least fits cs = true)
    (rest : List Char) :
    opening (cs ++ (Grammar.separator.toList ++ rest)) = (base.toList, true) := by
  have bar : '|' ∈ cs ++ (Grammar.separator.toList ++ rest) :=
    List.mem_append_right _ (List.mem_append_left _ (by decide))
  have spaced : ∀ c ∈ (Grammar.separator.toList ++ rest).head?, c = ' ' :=
    fun c first => (Option.some.inj first).symm
  rw [opening, takeWhile_of_isBounded word h spaced, List.contains_eq_mem, decide_eq_true bar]

end Bounds

namespace Condition

variable {c : Condition} {text : String} {key : List Char × Bool}

theorem opening_of_fits (plain : ∀ w ∈ c.words, IsWord w) (known : c.opening? = some key)
    (h : c.fits text = true) : opening text.toList = key := by
  cases c with
  | grammar expected =>
    obtain rfl := Option.some.inj known
    rw [beq_iff_eq.mp h]
  | sized base =>
    obtain rfl := Option.some.inj known
    exact opening_of_isBounded (plain base List.mem_cons_self) (by decide) h
  | limited base =>
    obtain rfl := Option.some.inj known
    exact opening_of_isBounded (plain base List.mem_cons_self) (by decide) h
  | limitedChoice first second =>
    obtain rfl := Option.some.inj known
    rw [fits] at h
    split at h
    · rename_i a b pieces
      have spaced : Grammar.separator.toList ≠ [] := by decide
      have whole := Text.intercalate_cutFrom spaced 0 text.toList
      rw [← Text.cutAt, pieces, List.drop_zero, List.intercalate_cons_cons,
        List.intercalate_singleton, List.append_assoc] at whole
      rw [← whole]
      exact opening_of_choice (plain first List.mem_cons_self) (Bool.and_eq_true_iff.mp h).1 b
    · cases h
  | names _ => cases known

end Condition

/-- The rules that look at the grammar. -/
def grammarRules : List Rule :=
  rules.filter (·.condition != .names keyValueNames)

/-- The rules of a table that apply to a name and a grammar. -/
def applicable (table : List Rule) (name text : String) : List Rule :=
  table.filter (·.condition.holds name text)

/-- What a table of rules infers about an entity at a place, and the usages after it is noted. -/
def inferAt (table : List Rule) (r : Registry) (site : Site) (u : Usages) (e : Entity) :
    Option Inference × Usages :=
  match byRules table r e with
  | some i => (some i, u.record site (Descriptor.ofInference e i))
  | none => (none, u)

theorem words_of_rules : ∀ rule ∈ rules, ∀ w ∈ rule.condition.words, IsWord w := by
  decide

/-- No two rules hold of grammars that begin alike. -/
theorem nodup_openings : (grammarRules.map (·.condition.opening?)).Nodup := by
  decide

theorem opening_of_grammarRules :
    ∀ rule ∈ grammarRules, rule.condition.opening?.isSome = true := by
  decide

theorem opening_of_holds {rule : Rule} (listed : rule ∈ grammarRules) {name text : String}
    (h : rule.condition.holds name text = true) :
    rule.condition.opening? = some (opening text.toList) := by
  obtain ⟨key, known⟩ := Option.isSome_iff_exists.mp (opening_of_grammarRules rule listed)
  have fits : rule.condition.fits text = true := by
    cases condition : rule.condition with
    | names _ =>
      rw [condition] at known
      cases known
    | _ =>
      rw [condition] at h
      exact h
  rw [known, Condition.opening_of_fits (words_of_rules rule (List.mem_filter.mp listed).1) known
    fits]

/-- At most one of the rules that look at the grammar applies. -/
theorem length_applicable_le_one (name text : String) :
    (applicable grammarRules name text).length ≤ 1 := by
  have alike : (applicable grammarRules name text).map (·.condition.opening?) =
      List.replicate (applicable grammarRules name text).length (some (opening text.toList)) := by
    rw [List.map_eq_replicate_iff]
    intro rule member
    obtain ⟨listed, holds⟩ := List.mem_filter.mp member
    exact opening_of_holds listed holds
  have distinct : ((applicable grammarRules name text).map (·.condition.opening?)).Nodup :=
    nodup_openings.sublist (List.filter_sublist.map _)
  rw [alike] at distinct
  exact List.nodup_replicate.mp distinct

theorem applicable_rules {name : String} (plain : name ∉ keyValueNames) (text : String) :
    applicable rules name text = applicable grammarRules name text := by
  rw [applicable, applicable, grammarRules, List.filter_filter]
  refine List.filter_congr fun rule _ => ?_
  by_cases blocks : rule.condition = .names keyValueNames
  · have other : keyValueNames.contains name = false := by simpa using plain
    rw [blocks, Condition.holds, other, Bool.false_and]
  · rw [bne_iff_ne.mpr blocks, Bool.and_true]

/-- The first of the applicable rules that infers something decides. -/
theorem byRules_eq (table : List Rule) (r : Registry) (e : Entity) :
    byRules table r e =
      (applicable table e.name (grammarText e)).findSome? fun rule => rule.infer r e := by
  rw [byRules, applicable, ← List.head?_filterMap, ← List.head?_filterMap, List.filterMap_filter]

theorem byRules_perm {table : List Rule} (reordered : table.Perm rules) (r : Registry)
    {e : Entity} (plain : e.name ∉ keyValueNames) : byRules table r e = ofEntity? r e := by
  have few : (applicable rules e.name (grammarText e)).length ≤ 1 := by
    rw [applicable_rules plain]
    exact length_applicable_le_one e.name (grammarText e)
  have same : applicable table e.name (grammarText e) =
      applicable rules e.name (grammarText e) := eq_of_perm (reordered.filter _) few
  rw [ofEntity?, byRules_eq, byRules_eq, same]

/-- At most one of the rules that look at the grammar applies to a grammar. So in whatever order
the rules are tried, the same is inferred at every place about an entity that is not known to be a
block of keys and values, and the same use is noted. -/
theorem rules_apart_in_any_order :
    (∀ name text, (applicable grammarRules name text).length ≤ 1) ∧
    ∀ (table : List Rule) (r : Registry) (site : Site) (u : Usages) (e : Entity),
      table.Perm rules → e.name ∉ keyValueNames → inferAt table r site u e =
        (ofEntity? r e, (Descriptor.ofEntity? r e).elim u (u.record site)) := by
  refine ⟨length_applicable_le_one, fun table r site u e reordered plain => ?_⟩
  rw [inferAt, byRules_perm reordered r plain, Descriptor.ofEntity?]
  cases ofEntity? r e <;> rfl

/-- An enumeration with a code. -/
def finishings : Entity where
  name := "finishings"
  grammar := ⟨"1setOf type2 enum", "enum", true⟩
  values := .codes [⟨"staple", 4⟩]

theorem rules_apart_in_reverse :
    rules.reverse.Perm rules ∧ finishings.name ∉ keyValueNames ∧
      (let inferred := inferAt rules.reverse { enums := Table.empty.put finishings }
        (.inside "media-col") {} finishings
      inferred.1 = some { kind := .enumeration, underlying := some "finishings" } ∧
        inferred.2.enums = [⟨"finishings", ["media-col.finishings"]⟩]) ∧
      (inferAt rules.reverse {} .top {} finishings).1 = none := by
  have reordered := List.reverse_perm rules
  have plain : finishings.name ∉ keyValueNames := by decide
  have order := fun r site => rules_apart_in_any_order.2 rules.reverse r site {} finishings
    reordered plain
  refine ⟨reordered, plain, ?_, ?_⟩
  · rw [order]
    decide
  · rw [order]
    decide

/-- For a block of keys and values the order matters. -/
example :
    let supply : Entity := { name := "printer-supply", grammar := ⟨"", "octetString", true⟩ }
    ofEntity? {} supply = some (plain .keyValue) ∧
      byRules rules.reverse {} supply = some (plain .octetString) := by
  decide

end Inference

end PrintRegistry
