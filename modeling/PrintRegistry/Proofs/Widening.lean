import PrintRegistry.Proofs.Canonical
import PrintRegistry.Proofs.Union

/-!
How families widen a declaration to a set. Where their declarations of an attribute are
reconciled one after another, the canonical one takes a set exactly if one of them does. There
is one exception: collections are reconciled without a look at their grammars, so the first
one decides for all, and a set of collections that comes after it is lost without a word.
-/

namespace PrintRegistry

/-- Two declarations are reconciled as collections, where the first grammar stands, or as
something else, where the grammar takes a set if one of theirs does. -/
theorem Entity.isSet_reconcile? {kept e both : Entity} (h : kept.reconcile? e = some both) :
    (kept.grammar.isCollection = true ∧ e.grammar.isCollection = true ∧
        both.grammar = kept.grammar) ∨
      (kept.grammar.isCollection = false ∧ e.grammar.isCollection = false ∧
        both.grammar.isSet = (kept.grammar.isSet || e.grammar.isSet) ∧
        (both.grammar.isCollection = true → both.grammar.isSet = true)) := by
  rcases (reconcile?_eq_some h).2 with ⟨collections, same⟩ | ⟨apart, unified | ⟨declared, same⟩⟩
  · obtain ⟨first, second⟩ := Bool.and_eq_true_iff.mp collections
    exact Or.inl ⟨first, second, same⟩
  · have alike := Grammar.isCollection_of_unify unified
    rw [alike, Bool.and_self] at apart
    exact Or.inr ⟨alike.trans apart, apart, Grammar.isSet_unify unified, fun collection =>
      (Grammar.unify_collection unified collection).2.2⟩
  · obtain ⟨text, set⟩ := (Grammar.beq_iff _ _).mp (grammar_of_sameDeclaration declared)
    have alike : kept.grammar.isCollection = e.grammar.isCollection := by
      rw [Grammar.isCollection, Grammar.isCollection, text]
    rw [alike, Bool.and_self] at apart
    have sets : both.grammar.isSet = (kept.grammar.isSet || e.grammar.isSet) := by
      rw [same, ← set, Bool.or_self]
    refine Or.inr ⟨alike.trans apart, apart, sets, fun collection => ?_⟩
    rw [same, alike, apart] at collection
    cases collection

/-- How a canonical declaration stands for those of the families: the first of them decides
for collections, any of them for other things. -/
inductive Widens : List Entity → Option Entity → Prop
  | none : Widens [] none
  | collections {es : List Entity} {first e : Entity} (head : es.head? = some first)
      (all : ∀ d ∈ es, d.grammar.isCollection = true) (same : e.grammar = first.grammar) :
      Widens es (some e)
  | others {es : List Entity} {first e : Entity} (head : es.head? = some first)
      (other : first.grammar.isCollection = false)
      (sets : e.grammar.isSet = es.any (·.grammar.isSet))
      (marked : e.grammar.isCollection = true → e.grammar.isSet = true) : Widens es (some e)

namespace Widens

variable {es : List Entity} {kept e both : Entity}

theorem single (e : Entity) : Widens [e] (some e) := by
  cases collection : e.grammar.isCollection with
  | true => exact .collections rfl (fun d member => List.mem_singleton.mp member ▸ collection) rfl
  | false =>
    refine .others rfl collection (by simp) fun yes => ?_
    rw [collection] at yes
    cases yes

/-- A further declaration is reconciled with the canonical one. -/
theorem add (h : Widens es (some kept)) (reconciled : kept.reconcile? e = some both) :
    Widens (es ++ [e]) (some both) := by
  cases h with
  | @collections _ first _ head all same =>
    have head' : (es ++ [e]).head? = some first := by rw [List.head?_append, head, Option.some_or]
    rcases Entity.isSet_reconcile? reconciled with ⟨-, second, stands⟩ | ⟨plain, -⟩
    · refine .collections head' (fun d member => ?_) (stands.trans same)
      rcases List.mem_append.mp member with old | new
      · exact all d old
      · exact List.mem_singleton.mp new ▸ second
    · rw [same, all first (List.mem_of_head? head)] at plain
      cases plain
  | @others _ first _ head other sets marked =>
    have head' : (es ++ [e]).head? = some first := by rw [List.head?_append, head, Option.some_or]
    have all : (es ++ [e]).any (·.grammar.isSet) = (kept.grammar.isSet || e.grammar.isSet) := by
      rw [List.any_append, ← sets, List.any_cons, List.any_nil, Bool.or_false]
    rcases Entity.isSet_reconcile? reconciled with ⟨collection, -, stands⟩ | ⟨-, -, widened, later⟩
    · -- What was widened to a set of collections stays one.
      have set := marked collection
      refine .others head' other ?_ fun _ => by rw [stands, set]
      rw [all, stands, set, Bool.true_or]
    · exact .others head' other (widened.trans all.symm) later

theorem decides {found : Option Entity} (h : Widens es found) {first : Entity}
    (declared : es.head? = some first) :
    ∃ e, found = some e ∧
      (first.grammar.isCollection = false → e.grammar.isSet = es.any (·.grammar.isSet)) ∧
      (first.grammar.isCollection = true → e.grammar.isSet = first.grammar.isSet ∧
        ∀ d ∈ es, d.grammar.isCollection = true) := by
  cases h with
  | none => cases declared
  | collections head all same =>
    obtain rfl := Option.some.inj (head.symm.trans declared)
    refine ⟨_, rfl, fun plain => ?_, fun _ => ⟨congrArg Grammar.isSet same, all⟩⟩
    rw [all _ (List.mem_of_head? head)] at plain
    cases plain
  | others head other sets =>
    obtain rfl := Option.some.inj (head.symm.trans declared)
    refine ⟨_, rfl, fun _ => sets, fun collection => ?_⟩
    rw [other] at collection
    cases collection

end Widens

namespace Registry

variable {r : Registry} {name : String}

theorem widens_canon (quiet : ∀ family kept other,
    .familiesDisagree family kept other ∈ r.canon.2 → kept.name ≠ name) :
    Widens (r.declarations name) (r.canon.1.find? name) := by
  refine canonInduction r name .none fun es found family e _ h disagree => ?_
  cases found with
  | none =>
    cases h
    exact .single e
  | some kept =>
    obtain ⟨named, reported⟩ := disagree kept rfl
    cases reconciled : kept.reconcile? e with
    | none => exact absurd named (quiet family kept e (reported reconciled))
    | some both => simpa [reconciled] using h.add reconciled

/-- Where families do not disagree about an attribute, its canonical declaration takes a set
exactly if one of them declares a set, unless the first one declares a collection: then all
do, and the first one decides. -/
theorem unifyFamilies_widens (declared : ∃ family, (r.attribute? family name).isSome = true)
    (quiet : ∀ family kept other,
      .familiesDisagree family kept other ∈ r.canon.2 → kept.name ≠ name) :
    ∃ first e, (r.declarations name).head? = some first ∧
      r.unifyFamilies.types.find? name = some e ∧
      (first.grammar.isCollection = false → (e.grammar.isSet = true ↔
        ∃ family d, r.attribute? family name = some d ∧ d.grammar.isSet = true)) ∧
      (first.grammar.isCollection = true → e.grammar.isSet = first.grammar.isSet ∧
        ∀ family d, r.attribute? family name = some d → d.grammar.isCollection = true) := by
  obtain ⟨family, declared⟩ := declared
  obtain ⟨d, known⟩ := Option.isSome_iff_exists.mp declared
  have member : d ∈ r.declarations name := mem_declarations_iff.mpr ⟨family, known⟩
  obtain ⟨first, head⟩ : ∃ first, (r.declarations name).head? = some first :=
    Option.isSome_iff_exists.mp (List.isSome_head?.mpr (List.ne_nil_of_mem member))
  obtain ⟨e, canonical, others, collections⟩ := (widens_canon quiet).decides head
  refine ⟨first, e, head, canonical, fun other => ?_, fun collection => ?_⟩
  · rw [others other, List.any_eq_true]
    simp only [mem_declarations_iff]
    exact ⟨fun ⟨d, ⟨family, known⟩, set⟩ => ⟨family, d, known, set⟩,
      fun ⟨family, d, known, set⟩ => ⟨d, ⟨family, known⟩, set⟩⟩
  · obtain ⟨set, all⟩ := collections collection
    exact ⟨set, fun family d known => all d (mem_declarations_iff.mpr ⟨family, known⟩)⟩

/-- Names in one family, and sets of keywords or names in another. -/
def coverChoices : Records where
  attributes :=
    [{ family := "Document Template", name := "cover", grammar := some "name(MAX)" },
     { family := "Job Template", name := "cover",
       grammar := some "1setOf (type2 keyword | name(MAX))" }]

theorem unifyFamilies_widens_of_choices :
    ∃ e, (ofRecords coverChoices).unifyFamilies.types.find? "cover" = some e ∧
      e.grammar.isSet = true := by
  have findings : (ofRecords coverChoices).canon.2.isEmpty = true := by decide
  have heads : ((ofRecords coverChoices).declarations "cover").head?.map (·.grammar.isCollection) =
      some false := by
    decide
  have sets : ((ofRecords coverChoices).attribute? "Job Template" "cover").map (·.grammar.isSet) =
      some true := by
    decide
  obtain ⟨d, known, set⟩ := Option.map_eq_some_iff.mp sets
  obtain ⟨first, e, head, found, widened, -⟩ := unifyFamilies_widens (r := ofRecords coverChoices)
    ⟨"Job Template", by rw [known]; rfl⟩ fun _ _ _ reported => by
      rw [List.isEmpty_iff.mp findings] at reported
      cases reported
  rw [head, Option.map_some, Option.some.injEq] at heads
  exact ⟨e, found, (widened heads).mpr ⟨_, d, known, set⟩⟩

/-- A collection in one family, and a set of them in another. -/
def overrides : Records where
  attributes :=
    [{ family := "Document Template", name := "overrides", grammar := some "collection" },
     { family := "Document Template", name := "overrides", member := some "pages",
       grammar := some "1setOf rangeOfInteger(1:MAX)" },
     { family := "Job Template", name := "overrides", grammar := some "1setOf collection" },
     { family := "Job Template", name := "overrides", member := some "pages",
       grammar := some "1setOf rangeOfInteger(1:MAX)" }]

/-- A set of collections that comes after a collection is lost, and nothing is reported. -/
theorem unifyFamilies_not_widens : ¬ ∀ (r : Registry) (name : String),
    (∃ family, (r.attribute? family name).isSome = true) →
      (∀ family kept other, .familiesDisagree family kept other ∈ r.canon.2 → kept.name ≠ name) →
        ∃ e, r.unifyFamilies.types.find? name = some e ∧ (e.grammar.isSet = true ↔
          ∃ family d, r.attribute? family name = some d ∧ d.grammar.isSet = true) := by
  intro widens
  have findings : (ofRecords overrides).canon.2.isEmpty = true := by decide
  have single : ((ofRecords overrides).unifyFamilies.types.find? "overrides").map
      (·.grammar.isSet) = some false := by
    decide
  have sets : ((ofRecords overrides).attribute? "Job Template" "overrides").map
      (·.grammar.isSet) = some true := by
    decide
  obtain ⟨d, known, set⟩ := Option.map_eq_some_iff.mp sets
  obtain ⟨e, found, widened⟩ := widens (ofRecords overrides) "overrides"
    ⟨"Job Template", by rw [known]; rfl⟩ fun _ _ _ reported => by
      rw [List.isEmpty_iff.mp findings] at reported
      cases reported
  rw [found, Option.map_some, widened.mpr ⟨_, d, known, set⟩] at single
  cases single

end Registry

end PrintRegistry
