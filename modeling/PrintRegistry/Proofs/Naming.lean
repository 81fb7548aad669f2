import PrintRegistry.Proofs.Model
import PrintRegistry.Proofs.Text

/-!
When emitted names are the same. A definition is known by the full name of its attribute, which
no other definition of its kind has. The name that it is emitted under has lost a plural `s`,
and that of an enumeration an ending that tells which values of an attribute are meant, so that
such enumerations share one type. These are the only ways for two names to become the same, and
nothing keeps both definitions from being emitted.
-/

namespace PrintRegistry

namespace Naming

/-- A name ends in a word in `s` that is no plural. -/
def IsNonplural (name : String) : Prop :=
  ∃ word ∈ nonplurals, word.toList <:+ name.toList

/-- A name is another one with an `s`, which makes it a plural. -/
def IsPluralOf (plural name : String) : Prop :=
  plural = name ++ "s" ∧ ¬ IsNonplural plural

def IsSingular (name : String) : Prop :=
  ∀ base, ¬ IsPluralOf name base

/-- Two names are the same, or one is the singular of the other. -/
def SameNoun (a b : String) : Prop :=
  a = b ∨ (IsPluralOf a b ∧ IsSingular b) ∨ (IsPluralOf b a ∧ IsSingular a)

/-- An enumeration of the name holds the values of an attribute, or those that are supported or
requested of it. -/
inductive IsAbout (base : String) : String → Prop where
  | supported : IsAbout base (base ++ "-supported")
  | requested : IsAbout base (base ++ "-requested")
  | itself (plain : ∀ other, base ≠ other ++ "-supported" ∧ base ≠ other ++ "-requested") :
      IsAbout base base

/-- Two enumerations are about attributes whose names have one singular. -/
def ShareType (a b : String) : Prop :=
  ∃ x y, IsAbout x a ∧ IsAbout y b ∧ SameNoun x y

/-- The name of the attribute that an enumeration is about. -/
def attributeOf (name : String) : String :=
  ((Text.withoutEnding? name "-supported").or (Text.withoutEnding? name "-requested")).getD name

variable {name base a b : String}

theorem isNonplural_iff : nonplurals.any (Text.endsWith name) = true ↔ IsNonplural name := by
  simp only [List.any_eq_true, Text.endsWith, List.isSuffixOf_iff_suffix, IsNonplural]

theorem singular_eq_iff :
    singular name = base ↔ IsPluralOf name base ∨ (name = base ∧ IsSingular name) := by
  rw [singular]
  split
  · rename_i nonplural
    have kept := isNonplural_iff.mp nonplural
    have stays : IsSingular name := fun _ plural => plural.2 kept
    exact ⟨fun same => Or.inr ⟨same, stays⟩, fun h => (h.resolve_left (stays base)).1⟩
  · rename_i plural
    rw [isNonplural_iff] at plural
    cases dropped : Text.withoutEnding? name "s" with
    | some start =>
      have whole := Text.withoutEnding?_eq_some_iff.mp dropped
      rw [Option.getD_some]
      constructor
      · rintro rfl
        exact Or.inl ⟨whole, plural⟩
      · rintro (⟨other, -⟩ | ⟨-, stays⟩)
        · exact Option.some.inj (dropped.symm.trans (Text.withoutEnding?_eq_some_iff.mpr other))
        · exact absurd ⟨whole, plural⟩ (stays start)
    | none =>
      have stays : IsSingular name := by
        rintro other ⟨whole, -⟩
        rw [Text.withoutEnding?_eq_some_iff.mpr whole] at dropped
        cases dropped
      exact ⟨fun same => Or.inr ⟨same, stays⟩, fun h => (h.resolve_left (stays base)).1⟩

theorem singular_eq_singular_iff : singular a = singular b ↔ SameNoun a b := by
  have own : ∀ name, IsPluralOf name (singular name) ∨ (name = singular name ∧ IsSingular name) :=
    fun name => singular_eq_iff.mp rfl
  constructor
  · intro same
    rcases own a with pluralA | ⟨selfA, singularA⟩ <;>
      rcases own b with pluralB | ⟨selfB, singularB⟩
    · exact Or.inl (by rw [pluralA.1, pluralB.1, same])
    · rw [same, ← selfB] at pluralA
      exact Or.inr (Or.inl ⟨pluralA, singularB⟩)
    · rw [← same, ← selfA] at pluralB
      exact Or.inr (Or.inr ⟨pluralB, singularA⟩)
    · exact Or.inl (by rw [selfA, selfB, same])
  · rintro (rfl | ⟨plural, singularB⟩ | ⟨plural, singularA⟩)
    · rfl
    · rw [singular_eq_iff.mpr (Or.inl plural), singular_eq_iff.mpr (Or.inr ⟨rfl, singularB⟩)]
    · rw [singular_eq_iff.mpr (Or.inl plural), singular_eq_iff.mpr (Or.inr ⟨rfl, singularA⟩)]

theorem attributeOf_of_isAbout (h : IsAbout base name) : attributeOf name = base := by
  cases h with
  | supported => rw [attributeOf, Text.withoutEnding?_append, Option.some_or, Option.getD_some]
  | requested =>
    have other : Text.withoutEnding? (base ++ "-requested") "-supported" = none :=
      Text.withoutEnding?_append_other base (by decide) (by decide)
    rw [attributeOf, other, Text.withoutEnding?_append, Option.none_or, Option.getD_some]
  | itself plain =>
    have supported : Text.withoutEnding? name "-supported" = none :=
      Option.eq_none_iff_forall_ne_some.mpr fun other found =>
        (plain other).1 (Text.withoutEnding?_eq_some_iff.mp found)
    have requested : Text.withoutEnding? name "-requested" = none :=
      Option.eq_none_iff_forall_ne_some.mpr fun other found =>
        (plain other).2 (Text.withoutEnding?_eq_some_iff.mp found)
    rw [attributeOf, supported, requested, Option.none_or, Option.getD_none]

theorem isAbout_attributeOf (name : String) : IsAbout (attributeOf name) name := by
  rw [attributeOf]
  cases supported : Text.withoutEnding? name "-supported" with
  | some base =>
    obtain rfl := Text.withoutEnding?_eq_some_iff.mp supported
    exact .supported
  | none =>
    cases requested : Text.withoutEnding? name "-requested" with
    | some base =>
      obtain rfl := Text.withoutEnding?_eq_some_iff.mp requested
      exact .requested
    | none =>
      rw [Option.none_or, Option.getD_none]
      refine .itself fun other => ⟨fun whole => ?_, fun whole => ?_⟩
      · rw [Text.withoutEnding?_eq_some_iff.mpr whole] at supported
        cases supported
      · rw [Text.withoutEnding?_eq_some_iff.mpr whole] at requested
        cases requested

theorem enumName_eq_enumName_iff : enumName a = enumName b ↔ ShareType a b := by
  have name : ∀ a, enumName a = singular (attributeOf a) := fun _ => rfl
  rw [name, name, singular_eq_singular_iff]
  constructor
  · intro same
    exact ⟨_, _, isAbout_attributeOf a, isAbout_attributeOf b, same⟩
  · rintro ⟨x, y, aboutA, aboutB, same⟩
    rwa [attributeOf_of_isAbout aboutA, attributeOf_of_isAbout aboutB]

end Naming

theorem EnumDefinition.name_ofEntity {t : Table Entity} {e : Entity} {d : EnumDefinition}
    (h : (ofEntity t e).1 = some d) : d.name = Naming.enumName d.fullName := by
  rw [ofEntity] at h
  split at h
  · cases h
  · split at h <;> cases h
    rfl

theorem KeywordDefinition.name_ofEntity {r : Registry} {e : Entity} {d : KeywordDefinition}
    (h : (ofEntity r e).1 = some d) : d.name = Naming.keywordName d.fullName := by
  rw [ofEntity] at h
  split at h
  · cases h
  · dsimp only at h
    split at h <;> cases h
    rfl

section Definitions

variable {α β : Type}

/-- What is made of some entries of a table under their names has distinct names. -/
theorem Table.nodup_filterMap [Named α] (t : Table α) {make : α → Option β} {fullName : β → String}
    (named : ∀ {a b}, make a = some b → fullName b = nameOf a) :
    ((t.toList.filterMap make).map fullName).Nodup := by
  have sublist : ∀ as : List α,
      ((as.filterMap make).map fullName).Sublist (as.map nameOf) := by
    intro as
    induction as with
    | nil => exact .slnil
    | cons a as ih =>
      cases made : make a with
      | none =>
        rw [List.filterMap_cons_none made]
        exact ih.cons _
      | some b =>
        rw [List.filterMap_cons_some made, List.map_cons, List.map_cons, named made]
        exact ih.cons_cons _
  exact t.distinct.sublist (sublist t.toList)

/-- Names are distinct exactly if no two of the full names that they come from share one. -/
theorem nodup_names_iff {name fullName : β → String} {short : String → String}
    {share : String → String → Prop} (shares : ∀ {a b}, short a = short b ↔ share a b)
    {ds : List β} (named : ∀ d ∈ ds, name d = short (fullName d)) :
    (ds.map name).Nodup ↔ (ds.map fullName).Pairwise fun a b => ¬ share a b := by
  rw [List.map_congr_left named, List.Nodup, List.pairwise_map, List.pairwise_map]
  exact ⟨List.Pairwise.imp (mt shares.mpr), List.Pairwise.imp (mt shares.mp)⟩

end Definitions

namespace Model

/-- The full names of the definitions of a model are distinct. The names that enumerations are
emitted under are distinct exactly if no two of their full names are, without the endings
`-supported` and `-requested`, the same or a plural and its singular; those of keywords exactly
if no two full names are a plural and its singular. -/
theorem names_distinct_iff (records : Records) :
    let enums := (resolve records).enums
    let keywords := (resolve records).keywords
    ((enums.map (·.fullName)).Nodup ∧ ((enums.map (·.name)).Nodup ↔
      (enums.map (·.fullName)).Pairwise fun a b => ¬ Naming.ShareType a b)) ∧
    (keywords.map (·.fullName)).Nodup ∧ ((keywords.map (·.name)).Nodup ↔
      (keywords.map (·.fullName)).Pairwise fun a b => ¬ Naming.SameNoun a b) := by
  intro enums keywords
  have enumsMade : enums = _ :=
    (enums_resolve records).trans (Registry.enumDefinitions_eq _)
  have keywordsMade : keywords = _ :=
    (keywords_resolve records).trans (Registry.keywordDefinitions_eq _)
  refine ⟨⟨?_, nodup_names_iff Naming.enumName_eq_enumName_iff fun d emitted => ?_⟩,
    ?_, nodup_names_iff Naming.singular_eq_singular_iff fun d emitted => ?_⟩
  · rw [enumsMade]
    exact Table.nodup_filterMap _ EnumDefinition.fullName_ofEntity
  · obtain ⟨e, -, made⟩ := List.mem_filterMap.mp (enumsMade ▸ emitted)
    exact EnumDefinition.name_ofEntity made
  · rw [keywordsMade]
    exact Table.nodup_filterMap _ KeywordDefinition.fullName_ofEntity
  · obtain ⟨e, -, made⟩ := List.mem_filterMap.mp (keywordsMade ▸ emitted)
    exact KeywordDefinition.name_ofEntity made

/-- An enumeration with the values that are supported apart from those there are, and a keyword
in the singular and in the plural. -/
def variants : Records where
  enums :=
    [{ about := "finishings", name := some "none", value := some "3",
       grammar := some "1setOf type2 enum" },
     { about := "finishings-supported", name := some "staple", value := some "4",
       grammar := some "1setOf type2 enum" }]
  keywords :=
    [{ about := "media-type", value := some "stationery", grammar := some "type2 keyword" },
     { about := "media-types", value := some "envelope", grammar := some "1setOf type2 keyword" }]

/-- Two enumerations can be emitted under one name, and so can two keywords. -/
theorem names_not_distinct : ¬ ((resolve variants).enums.map (·.name)).Nodup ∧
    ¬ ((resolve variants).keywords.map (·.name)).Nodup := by
  decide

end Model

end PrintRegistry
