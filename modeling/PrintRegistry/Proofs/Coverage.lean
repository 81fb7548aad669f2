import PrintRegistry.Grammar.Normal
import PrintRegistry.Proofs.Typing

/-!
Typing accounts for every entity. A collection is defined exactly if all entities
inside it have a kind, and then the tree of descriptors has the shape of the tree of
members. Otherwise the first entity inside it that has none is reported, and nothing
else about the collection. Whether an entity has a kind does not hang on what was
typed before.
-/

namespace PrintRegistry

namespace Entity

mutual

/-- The entity and everything inside it, each before its own members. -/
def preorder : Entity → List Entity
  | e@{ members, .. } => e :: preorderIn members

/-- Everything in a list of entities and inside them, in order. -/
def preorderIn : List Entity → List Entity
  | [] => []
  | m :: ms => m.preorder ++ preorderIn ms

end

theorem preorder_eq (e : Entity) : e.preorder = e :: preorderIn e.members := by
  cases e
  rw [preorder]

/-- A kind is inferred for the entity. -/
def hasKind (r : Registry) (e : Entity) : Bool :=
  (Inference.ofEntity? r e).isSome

theorem hasKind_eq (r : Registry) (e : Entity) :
    e.hasKind r = (Descriptor.ofEntity? r e).isSome := by
  rw [hasKind, Descriptor.ofEntity?, Option.isSome_map]

/-- The first entity in preorder for which no kind is inferred. -/
def firstWithoutKind? (r : Registry) (es : List Entity) : Option Entity :=
  es.find? fun e => !e.hasKind r

theorem firstWithoutKind?_append (r : Registry) (es fs : List Entity) :
    firstWithoutKind? r (es ++ fs) = (firstWithoutKind? r es).or (firstWithoutKind? r fs) :=
  List.find?_append

theorem firstWithoutKind?_cons (r : Registry) (e : Entity) (es : List Entity) :
    firstWithoutKind? r (e :: es) = if e.hasKind r then firstWithoutKind? r es else some e := by
  rw [firstWithoutKind?, List.find?_cons]
  cases e.hasKind r <;> rfl

/-- A tree of descriptors has the shape of a tree of entities, each descriptor with
the name, the multiplicity and the documents of its entity, and with what is
inferred about it. -/
inductive Mirrored (r : Registry) : Entity → Descriptor → Prop where
  | intro {e : Entity} {d : Descriptor} (inferred : Descriptor.ofEntity? r e = some d.bare)
      (name : d.name = e.name) (isSet : d.isSet = e.grammar.isSet) (specs : d.specs = e.specs)
      (members : List.Forall₂ (Mirrored r) e.members d.members) : Mirrored r e d

theorem Mirrored.ofMembers {r : Registry} {e : Entity} {base : Descriptor} {ds : List Descriptor}
    (found : Descriptor.ofEntity? r e = some base) (members : List.Forall₂ (Mirrored r) e.members ds) :
    e.Mirrored r { base with members := ds } := by
  have bare := Descriptor.bare_withMembers found ds
  obtain ⟨i, -, rfl⟩ := Descriptor.ofEntity?_eq_some_iff.mp found
  exact .intro (bare.symm ▸ found) rfl rfl rfl members

end Entity

theorem Entity.type_eq (r : Registry) (site : Site) (u : Usages) (e : Entity) :
    e.type r site u =
      match Descriptor.ofEntity? r e with
      | none => .error e
      | some d =>
        match typeMembers r (site.child e.name) (u.record site d) e.members with
        | .error missing => .error missing
        | .ok (types, u) => .ok ({ d with members := types }, u) := by
  cases e
  exact Entity.type.eq_1 ..

/-- What typing gives for entities that come in this order: the first one without a
kind, or, if all have one, a result that is as it should be. -/
inductive TypingOutcome (r : Registry) (es : List Entity) {β : Type} (fits : β → Prop) :
    Except Entity β → Prop where
  | typed {b : β} (all : Entity.firstWithoutKind? r es = none) (fit : fits b) :
    TypingOutcome r es fits (.ok b)
  | stuck {missing : Entity} (first : Entity.firstWithoutKind? r es = some missing) :
    TypingOutcome r es fits (.error missing)

private theorem typeMembers_outcome_of {r : Registry} (ms : List Entity)
    (single : ∀ m ∈ ms, ∀ site u,
      TypingOutcome r m.preorder (m.Mirrored r ·.1) (m.type r site u)) :
    ∀ site u, TypingOutcome r (Entity.preorderIn ms) (List.Forall₂ (Entity.Mirrored r) ms ·.1)
      (typeMembers r site u ms) := by
  induction ms with
  | nil =>
    intro site u
    exact .typed rfl .nil
  | cons m ms ih =>
    intro site u
    have here := single m List.mem_cons_self site u
    rw [typeMembers, Entity.preorderIn]
    generalize m.type r site u = result at here ⊢
    cases here with
    | stuck first =>
      apply TypingOutcome.stuck
      rw [Entity.firstWithoutKind?_append, first, Option.some_or]
    | @typed result all mirrored =>
      obtain ⟨d, between⟩ := result
      have later := ih (fun x member => single x (List.mem_cons_of_mem m member)) site between
      dsimp only
      generalize typeMembers r site between ms = rest at later ⊢
      cases later with
      | stuck first =>
        apply TypingOutcome.stuck
        rw [Entity.firstWithoutKind?_append, all, Option.none_or, first]
      | typed allLater mirroredLater =>
        refine .typed ?_ (.cons mirrored mirroredLater)
        rw [Entity.firstWithoutKind?_append, all, Option.none_or, allLater]

/-- Typing an entity ends at the first entity in preorder that has no kind. If there
is none, the result mirrors the entity. -/
theorem Entity.type_outcome {r : Registry} (e : Entity) :
    ∀ site u, TypingOutcome r e.preorder (e.Mirrored r ·.1) (e.type r site u) := by
  induction e using Entity.memberInduction with
  | step e ih =>
    intro site u
    rw [preorder_eq, type_eq]
    cases found : Descriptor.ofEntity? r e with
    | none =>
      apply TypingOutcome.stuck
      simp [firstWithoutKind?_cons, hasKind_eq, found]
    | some base =>
      have inner := typeMembers_outcome_of e.members ih (site.child e.name) (u.record site base)
      have kind : e.hasKind r = true := by rw [hasKind_eq, found, Option.isSome_some]
      dsimp only
      generalize typeMembers r (site.child e.name) (u.record site base) e.members = result
        at inner ⊢
      cases inner with
      | stuck first =>
        apply TypingOutcome.stuck
        rw [firstWithoutKind?_cons, if_pos kind, first]
      | typed all mirrored =>
        refine .typed ?_ (.ofMembers found mirrored)
        rw [firstWithoutKind?_cons, if_pos kind, all]

theorem typeMembers_outcome {r : Registry} (ms : List Entity) (site : Site) (u : Usages) :
    TypingOutcome r (Entity.preorderIn ms) (List.Forall₂ (Entity.Mirrored r) ms ·.1)
      (typeMembers r site u ms) :=
  typeMembers_outcome_of ms (fun m _ => m.type_outcome) site u

/-- A collection is defined under its name, with its documents, and with trees of
descriptors that have the shape of its members. -/
structure Entity.DefinedBy (r : Registry) (c : Entity) (d : CollectionDefinition) : Prop where
  name : d.name = c.name
  specs : d.specs = c.specs
  members : List.Forall₂ (Entity.Mirrored r) c.members d.members

/-- Entries of distinct names that each give at most one result: of the results, only
that of an entry itself is about its name. -/
theorem Named.filter_filterMap {α β : Type} [Named α] {xs : List α}
    (distinct : (Named.names xs).Nodup) {a : α} (member : a ∈ xs) {f : α → Option β}
    {p : β → Bool} (own : ∀ x ∈ xs, ∀ y, f x = some y → p y = (nameOf x == nameOf a)) :
    (xs.filterMap f).filter p = (f a).toList := by
  induction xs with
  | nil => cases member
  | cons x xs ih =>
    simp only [Named.names, List.map_cons, List.nodup_cons] at distinct
    have first : (f x).toList.filter p = if nameOf x = nameOf a then (f x).toList else [] := by
      cases found : f x with
      | none => simp
      | some y => by_cases same : nameOf x = nameOf a <;>
          simp [own x List.mem_cons_self y found, same]
    have split : (x :: xs).filterMap f = (f x).toList ++ xs.filterMap f := by
      cases found : f x <;> simp [found]
    rw [split, List.filter_append, first]
    have ownLater : ∀ z ∈ xs, ∀ y, f z = some y → p y = (nameOf z == nameOf a) :=
      fun z later => own z (List.mem_cons_of_mem x later)
    by_cases same : nameOf x = nameOf a
    · have here : a = x := by
        rcases List.mem_cons.mp member with here | later
        · exact here
        · exact absurd (same ▸ Named.mem_names later) distinct.1
      have rest : (xs.filterMap f).filter p = [] := by
        rw [List.filter_eq_nil_iff]
        intro y found
        obtain ⟨z, later, made⟩ := List.mem_filterMap.mp found
        have other : nameOf z ≠ nameOf a := by
          intro equal
          exact distinct.1 (same.trans equal.symm ▸ Named.mem_names later)
        simp [ownLater z later y made, other]
      rw [if_pos same, rest, List.append_nil, here]
    · have later : a ∈ xs := by
        refine (List.mem_cons.mp member).resolve_left fun here => same ?_
        rw [here]
      rw [if_neg same, List.nil_append]
      exact ih distinct.2 later ownLater

namespace Finding

/-- The finding is about a collection of this name that has a member without a
type. -/
def isUntypedMemberOf (collection : String) : Finding → Bool
  | untypedMember name _ => name == collection
  | _ => false

/-- The finding is about an attribute of this name that has no type. -/
def isUntypedAttribute (name : String) : Finding → Bool
  | untypedAttribute e => e.name == name
  | _ => false

end Finding

namespace Typing

/-- All entities inside a collection have a kind. -/
def isComplete (r : Registry) (c : Entity) : Bool :=
  (Entity.preorderIn c.members).all (Entity.hasKind r)

/-- What is reported about an emitted collection: the first entity inside it that has
no kind. -/
def memberFinding? (r : Registry) (c : Entity) : Option Finding :=
  (Entity.firstWithoutKind? r (Entity.preorderIn c.members)).map (.untypedMember c.name)

/-- What is reported about an attribute. -/
def attributeFinding? (r : Registry) (e : Entity) : Option Finding :=
  if e.hasKind r then none else some (.untypedAttribute e)

theorem addCollection_outcome (r : Registry) (t : Typing) (c : Entity) :
    (isComplete r c = true ∧ memberFinding? r c = none ∧ ∃ d u, c.DefinedBy r d ∧
      addCollection r t c = { t with collections := t.collections ++ [d], usages := u }) ∨
    (isComplete r c = false ∧ ∃ f, memberFinding? r c = some f ∧
      addCollection r t c = { t with findings := t.findings ++ [f] }) := by
  have outcome := typeMembers_outcome c.members (Site.top.child c.name) t.usages (r := r)
  rw [addCollection, memberFinding?]
  generalize typeMembers r (Site.top.child c.name) t.usages c.members = result at outcome ⊢
  cases outcome with
  | @typed result all mirrored =>
    refine Or.inl ⟨?_, by rw [all]; rfl, _, _, ⟨rfl, rfl, mirrored⟩, rfl⟩
    rw [Entity.firstWithoutKind?, List.find?_eq_none] at all
    simpa [isComplete] using all
  | stuck first =>
    refine Or.inr ⟨?_, _, by rw [first]; rfl, rfl⟩
    have found := List.find?_some first
    rw [isComplete, List.all_eq_false]
    exact ⟨_, List.mem_of_find?_eq_some first, by simpa using found⟩

theorem foldl_addCollection (r : Registry) (cs : List Entity) (t : Typing) :
    ∃ ds, (cs.foldl (addCollection r) t).collections = t.collections ++ ds ∧
      List.Forall₂ (Entity.DefinedBy r) (cs.filter (isComplete r)) ds ∧
      (cs.foldl (addCollection r) t).findings = t.findings ++ cs.filterMap (memberFinding? r) := by
  induction cs generalizing t with
  | nil => exact ⟨[], by simp, .nil, by simp⟩
  | cons c cs ih =>
    obtain ⟨ds, collections, defined, findings⟩ := ih (addCollection r t c)
    rw [List.foldl_cons, collections, findings]
    rcases addCollection_outcome r t c with
      ⟨complete, silent, d, u, definition, step⟩ | ⟨incomplete, f, found, step⟩
    · refine ⟨d :: ds, ?_, ?_, ?_⟩
      · simp [step]
      · rw [List.filter_cons_of_pos complete]
        exact .cons definition defined
      · simp [step, silent]
    · refine ⟨ds, ?_, ?_, ?_⟩
      · rw [step]
      · rw [List.filter_cons_of_neg (by simp [incomplete])]
        exact defined
      · simp [step, found]

theorem findings_eq (r : Registry) : (ofRegistry r).findings =
    (r.collections.toList.filter Entity.emitted).filterMap (memberFinding? r) ++
      (attributesInOrder r).filterMap (attributeFinding? r) := by
  obtain ⟨-, -, -, findings⟩ :=
    foldl_addCollection r (r.collections.toList.filter Entity.emitted) {}
  rw [findings_ofRegistry, ofCollections, findings, List.nil_append]
  congr 1
  induction attributesInOrder r with
  | nil => rfl
  | cons e es ih =>
    cases found : Descriptor.ofEntity? r e <;>
      simp [attributeFinding?, Entity.hasKind_eq, found, ← ih]

theorem distinct_attributesInOrder (r : Registry) :
    (Named.names (attributesInOrder r)).Nodup :=
  ((List.mergeSort_perm _ _).map nameOf).nodup_iff.mpr r.types.distinct

theorem eq_of_memberFinding? {r : Registry} {c : Entity} {f : Finding}
    (h : memberFinding? r c = some f) : ∃ m, f = .untypedMember c.name m := by
  obtain ⟨m, -, rfl⟩ := Option.map_eq_some_iff.mp h
  exact ⟨m, rfl⟩

theorem eq_of_attributeFinding? {r : Registry} {e : Entity} {f : Finding}
    (h : attributeFinding? r e = some f) : f = .untypedAttribute e := by
  rw [attributeFinding?] at h
  split at h
  · cases h
  · exact (Option.some.inj h).symm

/-- Of the findings about members, those about an emitted collection are what is
reported about it. -/
theorem memberFindings_of_mem {r : Registry} {c : Entity}
    (emitted : c ∈ r.collections.toList.filter Entity.emitted) :
    (ofRegistry r).findings.filter (·.isUntypedMemberOf c.name) =
      (memberFinding? r c).toList := by
  have distinct : (Named.names (r.collections.toList.filter Entity.emitted)).Nodup :=
    r.collections.distinct.sublist (List.filter_sublist.map nameOf)
  have others : ((attributesInOrder r).filterMap (attributeFinding? r)).filter
      (·.isUntypedMemberOf c.name) = [] := by
    rw [List.filter_eq_nil_iff]
    intro f member
    obtain ⟨e, -, found⟩ := List.mem_filterMap.mp member
    rw [eq_of_attributeFinding? found]
    simp [Finding.isUntypedMemberOf]
  rw [findings_eq, List.filter_append, others, List.append_nil]
  apply Named.filter_filterMap distinct emitted
  intro x _ f found
  obtain ⟨m, rfl⟩ := eq_of_memberFinding? found
  rfl

/-- Of the findings about attributes, those about a canonical attribute are what is
reported about it. -/
theorem attributeFindings_of_mem {r : Registry} {e : Entity} (canonical : e ∈ r.types.toList) :
    (ofRegistry r).findings.filter (·.isUntypedAttribute e.name) =
      (attributeFinding? r e).toList := by
  have others : ((r.collections.toList.filter Entity.emitted).filterMap (memberFinding? r)).filter
      (·.isUntypedAttribute e.name) = [] := by
    rw [List.filter_eq_nil_iff]
    intro f member
    obtain ⟨c, -, found⟩ := List.mem_filterMap.mp member
    obtain ⟨m, rfl⟩ := eq_of_memberFinding? found
    simp [Finding.isUntypedAttribute]
  rw [findings_eq, List.filter_append, others, List.nil_append]
  apply Named.filter_filterMap (distinct_attributesInOrder r) (List.mem_mergeSort.mpr canonical)
  intro x _ f found
  rw [eq_of_attributeFinding? found]
  rfl

theorem types_of_mem {r : Registry} {e : Entity} (canonical : e ∈ r.types.toList) :
    (ofRegistry r).types.filter (·.name == e.name) = (Descriptor.ofEntity? r e).toList := by
  rw [types_ofRegistry]
  apply Named.filter_filterMap (distinct_attributesInOrder r) (List.mem_mergeSort.mpr canonical)
  intro x _ d found
  rw [Descriptor.name_ofEntity? found]
  rfl

/-- Typing accounts for every entity. The collections defined are the emitted ones
in which every entity at every depth has a kind, in the order of the table, with
trees of descriptors in the shape of their members. Every other emitted collection is
reported once, with the first entity in preorder that has no kind. Every attribute
has either one descriptor or one report, and nothing else is reported. -/
theorem typing_accounts_for_entities (r : Registry) :
    let t := ofRegistry r
    let emitted := r.collections.toList.filter Entity.emitted
    List.Forall₂ (Entity.DefinedBy r) (emitted.filter (isComplete r)) t.collections ∧
      (∀ c ∈ emitted,
        (isComplete r c = true ∧ t.findings.filter (·.isUntypedMemberOf c.name) = []) ∨
        (isComplete r c = false ∧ ∃ m,
          Entity.firstWithoutKind? r (Entity.preorderIn c.members) = some m ∧
          t.findings.filter (·.isUntypedMemberOf c.name) = [.untypedMember c.name m])) ∧
      (∀ e ∈ r.types.toList,
        (∃ d, Descriptor.ofEntity? r e = some d ∧ t.types.filter (·.name == e.name) = [d] ∧
          t.findings.filter (·.isUntypedAttribute e.name) = []) ∨
        (e.hasKind r = false ∧ t.types.filter (·.name == e.name) = [] ∧
          t.findings.filter (·.isUntypedAttribute e.name) = [.untypedAttribute e])) ∧
      ∀ f ∈ t.findings, f.kind = .untyped ∧
        ((∃ c ∈ emitted, f.isUntypedMemberOf c.name = true) ∨
          ∃ e ∈ r.types.toList, f.isUntypedAttribute e.name = true) := by
  intro t emitted
  obtain ⟨ds, collections, defined, -⟩ := foldl_addCollection r emitted {}
  refine ⟨?_, fun c member => ?_, fun e canonical => ?_, fun f member => ?_⟩
  · rw [show t.collections = ds from (collections_ofRegistry r).trans collections]
    exact defined
  · have reported := memberFindings_of_mem member
    rcases addCollection_outcome r {} c with
      ⟨complete, silent, -⟩ | ⟨incomplete, f, found, -⟩
    · rw [silent] at reported
      exact Or.inl ⟨complete, reported⟩
    · rw [found] at reported
      obtain ⟨m, first, rfl⟩ := Option.map_eq_some_iff.mp found
      exact Or.inr ⟨incomplete, m, first, reported⟩
  · have typed := types_of_mem canonical
    have reported := attributeFindings_of_mem canonical
    rw [attributeFinding?, Entity.hasKind_eq] at reported
    rw [Entity.hasKind_eq]
    cases found : Descriptor.ofEntity? r e with
    | some d =>
      rw [found] at typed reported
      exact Or.inl ⟨d, rfl, typed, reported⟩
    | none =>
      rw [found] at typed reported
      exact Or.inr ⟨rfl, typed, reported⟩
  · rw [findings_eq] at member
    rcases List.mem_append.mp member with about | about
    · obtain ⟨c, listed, found⟩ := List.mem_filterMap.mp about
      obtain ⟨m, rfl⟩ := eq_of_memberFinding? found
      exact ⟨rfl, Or.inl ⟨c, listed, beq_self_eq_true _⟩⟩
    · obtain ⟨e, listed, found⟩ := List.mem_filterMap.mp about
      rw [eq_of_attributeFinding? found]
      exact ⟨rfl, Or.inr ⟨e, List.mem_mergeSort.mp listed, beq_self_eq_true _⟩⟩

/-- A collection with a member two levels down whose grammar is unknown, one whose
members are all known, and two attributes. -/
def sheets : Registry where
  collections := ⟨[
    { name := "job-sheets-col", grammar := Grammar.normalize "collection", emitted := true,
      members := [
        { name := "media-col", grammar := Grammar.normalize "collection", members := [
          { name := "media-key", grammar := Grammar.normalize "keyword" },
          { name := "media-odd", grammar := Grammar.normalize "odd" }] },
        { name := "job-odd", grammar := Grammar.normalize "odd" }] },
    { name := "media-size", grammar := Grammar.normalize "collection", emitted := true,
      members := [
        { name := "x-dimension", grammar := Grammar.normalize "integer(0:MAX)" }] }],
    by decide⟩
  types := ⟨[
    { name := "copies", grammar := Grammar.normalize "integer(1:MAX)" },
    { name := "odd", grammar := Grammar.normalize "odd" }], by decide⟩

theorem typing_accounts_for_entities_of_sheets :
    ((ofRegistry sheets).findings.filter (·.isUntypedMemberOf "job-sheets-col")).map
        Finding.message = ["Collection job-sheets-col member media-odd has no type for 'odd'"] ∧
      ((ofRegistry sheets).types.filter (·.name == "copies")).map Descriptor.name = ["copies"] ∧
      (ofRegistry sheets).types.filter (·.name == "odd") = [] := by
  obtain ⟨-, members, attributes, -⟩ := typing_accounts_for_entities sheets
  refine ⟨?_, ?_, ?_⟩
  · rcases members _ (List.mem_filter.mpr ⟨List.mem_cons_self, rfl⟩) with
      ⟨complete, -⟩ | ⟨-, m, first, reported⟩
    · exact absurd complete (by decide)
    · have shown : (Finding.untypedMember "job-sheets-col" m).message =
          "Collection job-sheets-col member media-odd has no type for 'odd'" := by
        apply Option.some.inj
        refine (congrArg (Option.map fun m => Finding.message (.untypedMember "job-sheets-col" m))
          first.symm).trans ?_
        decide
      rw [reported, List.map_singleton, shown]
  · rcases attributes _ List.mem_cons_self with ⟨d, found, typed, -⟩ | ⟨unknown, -⟩
    · rw [typed, List.map_singleton, Descriptor.name_ofEntity? found]
    · exact absurd unknown (by decide)
  · rcases attributes _ (List.mem_cons_of_mem _ List.mem_cons_self) with
      ⟨d, found, -⟩ | ⟨-, untyped, -⟩
    · have known := Option.isSome_of_eq_some found
      exact absurd known (by decide)
    · exact untyped

end Typing

end PrintRegistry
