import PrintRegistry.Grammar.Union
import PrintRegistry.Proofs.Shape

/-!
Grammars that cover two others. The cover of two texts is always one of the two, so
covering is commutative and a cover covers both sides again. What it does not do is keep
all alternatives: an alternation whose first alternative is a bounded form, such as
`integer(0:MAX) | rangeOfInteger(0:MAX)`, reads like that form and is covered by the base.
Collections are covered by nothing but collections.
-/

namespace PrintRegistry.Grammar

theorem beq_comm (g h : Grammar) : (g == h) = (h == g) := by
  rw [Bool.eq_iff_iff, beq_iff, beq_iff, eq_comm, eq_comm (a := g.isSet)]

theorem isBoundedForm_iff {base text : String} :
    isBoundedForm base text = true ↔ ∃ rest, text.toList = base.toList ++ '(' :: rest := by
  rw [isBoundedForm, Text.withoutStart?]
  cases found : base.toList.isPrefixOf? text.toList with
  | none =>
    refine iff_of_false (by simp) ?_
    rintro ⟨rest, same⟩
    rw [List.isPrefixOf?_eq_some_iff_append_eq.mpr same.symm] at found
    cases found
  | some bound =>
    have whole : base.toList ++ bound = text.toList :=
      List.isPrefixOf?_eq_some_iff_append_eq.mp found
    have inner : (String.ofList bound).toList = bound := String.toList_ofList
    rw [Option.map_some]
    dsimp only
    rw [Text.startsWith, inner, List.isPrefixOf_iff_prefix, ← whole]
    constructor
    · rintro ⟨rest, rfl⟩
      exact ⟨rest, rfl⟩
    · rintro ⟨rest, same⟩
      exact ⟨rest, (List.append_cancel_left same).symm⟩

theorem isBoundedForm_of_plain {base text : String} (plain : '(' ∉ text.toList) :
    isBoundedForm base text = false := by
  refine Bool.eq_false_iff.mpr fun bounded => ?_
  obtain ⟨rest, whole⟩ := isBoundedForm_iff.mp bounded
  exact plain (whole ▸ List.mem_append_right _ List.mem_cons_self)

section Covers

/-- The text that covers what the union joins. -/
def Union.cover : Union → String
  | .pair _ _ cover => cover
  | .bounded base => base

/-- The union joins the two texts. -/
def Union.Joins : Union → String → String → Prop
  | .pair first second _, x, y => x = first ∧ y = second ∨ x = second ∧ y = first
  | .bounded base, x, y => x = base ∧ isBoundedForm base y = true ∨
      y = base ∧ isBoundedForm base x = true

variable {u : Union} {x y t : String}

theorem Union.cover?_eq_some_iff : u.cover? x y = some t ↔ u.Joins x y ∧ t = u.cover := by
  cases u <;>
  · rw [Union.cover?, Union.Joins, Union.cover]
    split
    · rename_i joins
      rw [Option.some.injEq, eq_comm, and_iff_right joins]
    · rename_i apart
      exact iff_of_false (by simp) fun joins => apart joins.1

theorem Union.joins_comm : u.Joins x y ↔ u.Joins y x := by
  cases u with
  | pair => exact Or.comm.trans (or_congr And.comm And.comm)
  | bounded => exact Or.comm

theorem Union.cover?_comm (u : Union) (x y : String) : u.cover? x y = u.cover? y x := by
  refine Option.ext fun t => ?_
  rw [Union.cover?_eq_some_iff, Union.cover?_eq_some_iff, Union.joins_comm]

/-- Each union covers two texts by one of them. -/
theorem Union.cover_side (known : u ∈ unions) (joins : u.Joins x y) :
    u.cover = x ∨ u.cover = y := by
  simp only [unions, List.mem_cons, List.not_mem_nil, or_false] at known
  rcases known with rfl | rfl | rfl
  · exact joins.elim (fun here => Or.inr here.2.symm) fun here => Or.inl here.1.symm
  all_goals exact joins.imp (·.1.symm) (·.1.symm)

theorem Union.cover_normal (known : u ∈ unions) :
    (normalize u.cover).text = u.cover ∧ (normalize u.cover).isSet = false := by
  have each : ∀ u ∈ unions,
      (normalize u.cover).text = u.cover ∧ (normalize u.cover).isSet = false := by
    decide
  exact each u known

/-- The text that covers two texts. -/
def jointText? (x y : String) : Option String :=
  if x = y then some x else unions.findSome? (·.cover? x y)

theorem jointText?_cases (h : jointText? x y = some t) :
    x = y ∧ t = x ∨ x ≠ y ∧ ∃ u ∈ unions, u.Joins x y ∧ t = u.cover := by
  rw [jointText?] at h
  split at h
  · rename_i same
    exact Or.inl ⟨same, (Option.some.inj h).symm⟩
  · rename_i different
    obtain ⟨u, known, covers⟩ := List.exists_of_findSome?_eq_some h
    exact Or.inr ⟨different, u, known, Union.cover?_eq_some_iff.mp covers⟩

theorem jointText?_self (x : String) : jointText? x x = some x :=
  if_pos rfl

theorem jointText?_comm (x y : String) : jointText? x y = jointText? y x := by
  by_cases same : x = y
  · rw [same]
  · rw [jointText?, if_neg same, jointText?, if_neg (Ne.symm same)]
    simp only [Union.cover?_comm _ x y]

theorem jointText?_side (h : jointText? x y = some t) : t = x ∨ t = y := by
  rcases jointText?_cases h with ⟨-, here⟩ | ⟨-, u, known, joins, rfl⟩
  · exact Or.inl here
  · exact Union.cover_side known joins

/-- The cover of two texts covers each of them with itself. -/
theorem jointText?_absorbs (h : jointText? x y = some t) :
    jointText? t x = some t ∧ jointText? t y = some t := by
  rcases jointText?_side h with rfl | rfl
  · exact ⟨jointText?_self t, h⟩
  · exact ⟨(jointText?_comm t x).trans h, jointText?_self t⟩

/-- No cover is a bounded form. -/
theorem Union.isBoundedForm_cover (known : u ∈ unions) (base : String) :
    isBoundedForm base u.cover = false := by
  have each : ∀ u ∈ unions, '(' ∉ u.cover.toList := by decide
  exact isBoundedForm_of_plain (each u known)

/-- Nothing but itself covers the cover of a union. -/
theorem Union.cover_top (known : u ∈ unions) (h : jointText? u.cover y = some t) :
    t = u.cover := by
  rcases jointText?_cases h with ⟨-, here⟩ | ⟨-, v, known', joins, rfl⟩
  · exact here
  · cases v with
    | pair first second cover =>
      have each : ∀ u ∈ unions, u.cover ≠ "name" := by decide
      simp only [unions, List.mem_cons, List.not_mem_nil, or_false, Union.pair.injEq, reduceCtorEq]
        at known'
      obtain ⟨rfl, rfl, rfl⟩ := known'
      exact joins.elim (fun here => absurd here.1 (each u known)) fun here => here.1.symm
    | bounded base =>
      refine joins.elim (fun here => here.1.symm) fun here => ?_
      rw [isBoundedForm_cover known] at here
      cases here.2

/-- What covers a text is covered in turn only by what covers that text too. -/
theorem jointText?_trans {z : String} (first : jointText? x y = some y)
    (second : jointText? y z = some t) : jointText? x t = some t := by
  rcases jointText?_side second with rfl | rfl
  · exact first
  · rcases jointText?_cases first with ⟨rfl, -⟩ | ⟨-, u, known, -, rfl⟩
    · exact second
    · exact (Union.cover_top known second).symm ▸ first

end Covers

section Unifying

variable {a b u : Grammar}

theorem unify_eq (a b : Grammar) : unify a b =
    if a == b then none else (jointText? a.text b.text).map (ofText · (a.isSet || b.isSet)) :=
  rfl

theorem unify_eq_some (h : unify a b = some u) : (a == b) = false ∧
    ∃ t, jointText? a.text b.text = some t ∧ ofText t (a.isSet || b.isSet) = u := by
  rw [unify_eq] at h
  split at h
  · cases h
  · rename_i different
    exact ⟨Bool.eq_false_iff.mpr different, Option.map_eq_some_iff.mp h⟩

theorem unify_comm (a b : Grammar) : unify a b = unify b a := by
  rw [unify_eq, unify_eq, beq_comm, jointText?_comm, Bool.or_comm]

/-- Of two grammars of one text that differ, one takes a set. -/
theorem either_isSet (different : (a == b) = false) (same : a.text = b.text) :
    (a.isSet || b.isSet) = true := by
  have apart : a.isSet ≠ b.isSet := fun equal => by
    rw [(beq_iff a b).mpr ⟨same, equal⟩] at different
    cases different
  cases first : a.isSet <;> cases second : b.isSet <;> simp [first, second] at apart ⊢

/-- A grammar that covers two takes a set exactly if one of them does. -/
theorem isSet_unify (h : unify a b = some u) : u.isSet = (a.isSet || b.isSet) := by
  obtain ⟨different, t, joint, rfl⟩ := unify_eq_some h
  have sets : (ofText t (a.isSet || b.isSet)).isSet =
      ((normalize t).isSet || (a.isSet || b.isSet)) := by
    simp only [ofText, withSet]
  rcases jointText?_cases joint with ⟨same, -⟩ | ⟨-, union, known, -, rfl⟩
  · rw [sets, either_isSet different same, Bool.or_true]
  · rw [sets, (Union.cover_normal known).2, Bool.false_or]

/-- Unification is commutative, and its result absorbs both sides. The grammar that covers
two normal ones is normal and takes a set exactly if one of them does; with either of them
it is covered by itself, unless it is that one. -/
theorem unify_comm_and_absorbs (left : (normalize a.text).text = a.text)
    (right : (normalize b.text).text = b.text) :
    unify a b = unify b a ∧
      ∀ u, unify a b = some u →
        (normalize u.text).text = u.text ∧ u.isSet = (a.isSet || b.isSet) ∧
          ∀ x ∈ [a, b], (u == x) = true ∧ unify u x = none ∨
            ∃ v, unify u x = some v ∧ (v == u) = true := by
  refine ⟨unify_comm a b, fun u unified => ?_⟩
  have sets := isSet_unify unified
  obtain ⟨-, t, joint, rfl⟩ := unify_eq_some unified
  have normal : (normalize t).text = t := by
    rcases jointText?_side joint with rfl | rfl
    · exact left
    · exact right
  have text : ∀ isSet, (ofText t isSet).text = t := fun _ => normal
  have set : ∀ isSet, (ofText t isSet).isSet = isSet := fun isSet => by
    have unmarked := isSet_of_normal normal
    rw [ofText, withSet, unmarked, Bool.false_or]
  refine ⟨by rw [text, normal], sets, fun x side => ?_⟩
  have covered : jointText? t x.text = some t ∧
      (a.isSet || b.isSet || x.isSet) = (a.isSet || b.isSet) := by
    simp only [List.mem_cons, List.not_mem_nil, or_false] at side
    rcases side with rfl | rfl
    · exact ⟨(jointText?_absorbs joint).1, by rw [Bool.or_right_comm, Bool.or_self]⟩
    · exact ⟨(jointText?_absorbs joint).2, by rw [Bool.or_assoc, Bool.or_self]⟩
  rw [unify_eq, text, covered.1, set, covered.2]
  by_cases same : (ofText t (a.isSet || b.isSet) == x) = true
  · rw [if_pos same]
    exact Or.inl ⟨same, rfl⟩
  · rw [if_neg same]
    exact Or.inr ⟨_, rfl, (beq_iff _ _).mpr ⟨rfl, rfl⟩⟩

/-- A bounded place and a set of places. -/
theorem unify_comm_and_absorbs_of_uris :
    ∃ u, unify (normalize "1setOf uri") (normalize "uri(45)") = some u ∧ u.isSet = true ∧
      ∃ v, unify u (normalize "uri(45)") = some v ∧ (v == u) = true := by
  have laws := unify_comm_and_absorbs (a := normalize "uri(45)") (b := normalize "1setOf uri")
    (by decide) (by decide +kernel)
  have covered : (unify (normalize "uri(45)") (normalize "1setOf uri")).isSome = true := by
    decide
  obtain ⟨u, unified⟩ := Option.isSome_iff_exists.mp covered
  obtain ⟨-, sets, absorbs⟩ := laws.2 u unified
  have set : u.isSet = true := sets.trans (by decide)
  refine ⟨u, laws.1 ▸ unified, set, ?_⟩
  refine (absorbs (normalize "uri(45)") (by simp)).resolve_left fun same => ?_
  have single : (normalize "uri(45)").isSet = false := by decide
  rw [← ((beq_iff _ _).mp same.1).2, set] at single
  cases single

end Unifying

section Collections

theorem isCollection_iff {g : Grammar} : g.isCollection = true ↔ g.text = "collection" :=
  beq_iff_eq

theorem isCollection_ofText (text : String) (isSet : Bool) :
    (ofText text isSet).isCollection = (normalize text).isCollection := by
  simp only [ofText, isCollection, withSet]

theorem Union.cover_not_collection {u : Union} (known : u ∈ unions) :
    (normalize u.cover).isCollection = false := by
  have each : ∀ u ∈ unions, u.cover ≠ "collection" := by decide
  rw [isCollection, (Union.cover_normal known).1]
  exact beq_false_of_ne (each u known)

/-- No union joins collections with anything. -/
theorem Union.not_joins_collection {u : Union} (known : u ∈ unions) (y : String) :
    ¬ u.Joins "collection" y := by
  simp only [unions, List.mem_cons, List.not_mem_nil, or_false] at known
  rcases known with rfl | rfl | rfl
  · rintro (⟨same, -⟩ | ⟨same, -⟩) <;> exact absurd same (by decide)
  all_goals
    rintro (⟨same, -⟩ | ⟨-, bounded⟩)
    · exact absurd same (by decide)
    · exact absurd bounded (by decide)

variable {a b g : Grammar}

/-- Collections are only unified with each other. -/
theorem isCollection_of_unify (h : unify a b = some g) : a.isCollection = b.isCollection := by
  obtain ⟨-, t, joint, -⟩ := unify_eq_some h
  rcases jointText?_cases joint with ⟨same, -⟩ | ⟨-, u, known, joins, -⟩
  · rw [isCollection, isCollection, same]
  · have left : a.isCollection = false := Bool.eq_false_iff.mpr fun collection =>
      Union.not_joins_collection known b.text (isCollection_iff.mp collection ▸ joins)
    have right : b.isCollection = false := Bool.eq_false_iff.mpr fun collection =>
      Union.not_joins_collection known a.text
        (Union.joins_comm.mp (isCollection_iff.mp collection ▸ joins))
    rw [left, right]

/-- A grammar that covers two is that of collections only if both have one text, which is
that of collections when it is normalized once more. The grammar is then a set. -/
theorem unify_collection (h : unify a b = some g) (collection : g.isCollection = true) :
    a.text = b.text ∧ (normalize b.text).isCollection = true ∧ g.isSet = true := by
  have sets := isSet_unify h
  obtain ⟨different, t, joint, rfl⟩ := unify_eq_some h
  rw [isCollection_ofText] at collection
  rcases jointText?_cases joint with ⟨same, rfl⟩ | ⟨-, u, known, -, rfl⟩
  · exact ⟨same, same ▸ collection, sets.trans (either_isSet different same)⟩
  · rw [Union.cover_not_collection known] at collection
    cases collection

end Collections

section Choices

/-- What a grammar lets choose from: its alternatives, or its whole text. -/
def choices (g : Grammar) : List String :=
  if g.alternatives = [] then [g.text] else g.alternatives

/-- A choice without its bounds: what stands before the first parenthesis. -/
def stem (choice : String) : String :=
  String.ofList (choice.toList.takeWhile (· != '('))

def stems (g : Grammar) : List String :=
  g.choices.map stem

/-- A grammar is a base, and the other one is an alternation that begins like a bounded
form of it and offers something else besides. -/
structure Swallows (u x : Grammar) : Prop where
  base : .bounded u.text ∈ unions
  bounded : isBoundedForm u.text x.text = true
  alternation : x.alternatives ≠ []
  more : ∃ s ∈ x.stems, s ≠ u.text

variable {a b u x : Grammar}

theorem stems_congr (same : a.text = b.text) : a.stems = b.stems := by
  rw [stems, choices, alternatives_congr same, same, stems, choices]

/-- A base is a single choice without bounds. -/
theorem base_plain {base : String} (known : .bounded base ∈ unions) :
    ({ raw := base, text := base, isSet := false : Grammar }).stems = [base] ∧
      '(' ∉ base.toList := by
  simp only [unions, List.mem_cons, List.not_mem_nil, or_false, Union.bounded.injEq, reduceCtorEq,
    false_or] at known
  rcases known with rfl | rfl <;> decide

theorem stems_of_base (known : .bounded u.text ∈ unions) : u.stems = [u.text] :=
  (stems_congr rfl).trans (base_plain known).1

theorem stem_of_bounded {base text : String} (known : .bounded base ∈ unions)
    (bounded : isBoundedForm base text = true) : stem text = base := by
  obtain ⟨rest, whole⟩ := isBoundedForm_iff.mp bounded
  have inner : ∀ c ∈ base.toList, (c != '(') = true := fun c member =>
    bne_iff_ne.mpr fun same => (base_plain known).2 (same ▸ member)
  rw [stem, whole, List.takeWhile_append_of_pos inner, List.takeWhile_cons_of_neg (by decide),
    List.append_nil, String.ofList_toList]

theorem Swallows.loses (h : Swallows u x) : ¬ ∀ s ∈ x.stems, s ∈ u.stems := by
  intro kept
  obtain ⟨s, listed, other⟩ := h.more
  have among := kept s listed
  rw [stems_of_base h.base, List.mem_singleton] at among
  exact other among

/-- The cover of a union keeps what one of the texts offers, if it does not swallow it. -/
theorem stems_of_joins {union : Union} (known : union ∈ unions) {y : String}
    (joins : union.Joins x.text y) (covers : u.text = union.cover) :
    (∀ s ∈ x.stems, s ∈ u.stems) ∨ Swallows u x := by
  cases union with
  | pair first second cover =>
    simp only [unions, List.mem_cons, List.not_mem_nil, or_false, Union.pair.injEq, reduceCtorEq]
      at known
    obtain ⟨rfl, rfl, rfl⟩ := known
    have kept : ∀ text ∈ ["name", "keyword | name"],
        ∀ s ∈ ({ raw := text, text, isSet := false : Grammar }).stems,
          s ∈ ({ raw := text, text := "keyword | name", isSet := false : Grammar }).stems := by
      decide
    have side : x.text ∈ ["name", "keyword | name"] := by
      rcases joins with ⟨here, -⟩ | ⟨here, -⟩ <;> simp [here]
    have covered : u.stems =
        ({ raw := x.text, text := "keyword | name", isSet := false : Grammar }).stems :=
      stems_congr covers
    rw [covered]
    exact Or.inl (kept x.text side)
  | bounded base =>
    have text : u.text = base := covers
    subst text
    rcases joins with ⟨same, -⟩ | ⟨-, bounded⟩
    · rw [stems_congr same]
      exact Or.inl fun _ => id
    · by_cases more : ∃ s ∈ x.stems, s ≠ u.text
      · refine Or.inr ⟨known, bounded, fun none => ?_, more⟩
        obtain ⟨s, listed, other⟩ := more
        rw [stems, choices, if_pos none, List.map_singleton, List.mem_singleton,
          stem_of_bounded known bounded] at listed
        exact other listed
      · push Not at more
        refine Or.inl fun s listed => ?_
        rw [stems_of_base known, more s listed]
        exact List.mem_singleton_self _

/-- The grammar that covers two takes a set if one of them does, and lets choose from all
that they do, bounds apart, but for one thing: a base swallows an alternation that begins
with a bounded form of it. -/
theorem unify_keeps_choices (h : unify a b = some u)
    (normal : a.text = b.text → (normalize a.text).text = a.text) :
    u.isSet = (a.isSet || b.isSet) ∧
      ∀ x ∈ [a, b], (∀ s ∈ x.stems, s ∈ u.stems) ↔ ¬ Swallows u x := by
  refine ⟨isSet_unify h, fun x side => ⟨fun kept swallows => swallows.loses kept, ?_⟩⟩
  obtain ⟨-, t, joint, rfl⟩ := unify_eq_some h
  rcases jointText?_cases joint with ⟨same, rfl⟩ | ⟨-, union, known, joins, rfl⟩
  · have text : (ofText a.text (a.isSet || b.isSet)).text = x.text := by
      simp only [List.mem_cons, List.not_mem_nil, or_false] at side
      rcases side with rfl | rfl
      · exact normal same
      · exact (normal same).trans same
    intro _
    rw [stems_congr text]
    exact fun _ => id
  · have text : (ofText union.cover (a.isSet || b.isSet)).text = union.cover :=
      (Union.cover_normal known).1
    have joined : ∃ y, union.Joins x.text y := by
      simp only [List.mem_cons, List.not_mem_nil, or_false] at side
      rcases side with rfl | rfl
      · exact ⟨b.text, joins⟩
      · exact ⟨a.text, Union.joins_comm.mp joins⟩
    obtain ⟨y, joins⟩ := joined
    exact (stems_of_joins known joins text).resolve_right

/-- A name, and a set of keywords or names. -/
theorem unify_keeps_choices_of_names :
    ∃ u, unify (normalize "name(MAX)") (normalize "1setOf (keyword | name)") = some u ∧
      u.isSet = true ∧ "keyword" ∈ u.stems ∧ "name" ∈ u.stems := by
  have covered :
      (unify (normalize "name(MAX)") (normalize "1setOf (keyword | name)")).isSome = true := by
    decide
  obtain ⟨u, unified⟩ := Option.isSome_iff_exists.mp covered
  obtain ⟨sets, kept⟩ := unify_keeps_choices unified fun same =>
    absurd same (by decide)
  have offers : (normalize "1setOf (keyword | name)").stems = ["keyword", "name"] := by
    decide
  have apart : ¬ Swallows u (normalize "1setOf (keyword | name)") := fun swallows => by
    have unbounded : ∀ union ∈ unions, ∀ base ∈ [union.cover],
        isBoundedForm base (normalize "1setOf (keyword | name)").text = false := by
      decide
    have bounded := swallows.bounded
    rw [unbounded _ swallows.base u.text (List.mem_singleton_self _)] at bounded
    cases bounded
  have all := (kept (normalize "1setOf (keyword | name)") (by simp)).mpr apart
  rw [offers] at all
  exact ⟨u, unified, sets.trans (by decide), all _ (by simp), all _ (by simp)⟩

/-- An integer covers the alternation of an integer and a range. -/
theorem unify_not_keeps_choices : ¬ ∀ first second : String, ∀ u,
    unify (normalize first) (normalize second) = some u →
      ∀ s ∈ (normalize first).stems ++ (normalize second).stems, s ∈ u.stems := by
  intro kept
  have covered : (unify (normalize "integer")
      (normalize "rangeOfInteger(0:MAX) | integer(0:MAX)")).map Grammar.stems =
        some ["integer"] := by
    decide
  have offers : "rangeOfInteger" ∈ (normalize "rangeOfInteger(0:MAX) | integer(0:MAX)").stems := by
    decide
  obtain ⟨u, unified, stems⟩ := Option.map_eq_some_iff.mp covered
  have lost := kept _ _ u unified _ (List.mem_append_right _ offers)
  rw [stems] at lost
  exact absurd lost (by decide)

end Choices

end PrintRegistry.Grammar
