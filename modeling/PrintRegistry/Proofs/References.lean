import PrintRegistry.Proofs.Audit
import PrintRegistry.Proofs.Bindings
import PrintRegistry.Proofs.Canonical
import PrintRegistry.Proofs.Members
import PrintRegistry.Proofs.Union

/-!
Where collections point. In a model without warnings a member with the grammar of
a collection has members of its own or points at a collection that is defined.
The same goes for attributes, with two exceptions. The audit passes over attributes
with members, so an attribute that is an alias, and has been given members by
another alias, points where nobody has looked. And the grammar of an attribute may
become that of a collection only when families are reconciled, after the audit.
-/

namespace PrintRegistry

/-- Two declarations are reconciled to the first one, with other documents and
perhaps another grammar. -/
theorem Entity.reconcile?_origin {kept e both : Entity} (h : kept.reconcile? e = some both) :
    both.name = kept.name ∧ both.reference = kept.reference ∧
      (both.grammar.isCollection = true → kept.grammar.isCollection = true ∨
        (e.grammar.isCollection = false ∧
          (Grammar.normalize e.grammar.text).isCollection = true)) := by
  obtain ⟨stands, grammar⟩ := reconcile?_eq_some h
  refine ⟨by rw [stands]; rfl, by rw [stands]; rfl, fun collection => ?_⟩
  rcases grammar with ⟨-, same⟩ | ⟨apart, unified | ⟨-, same⟩⟩
  · exact Or.inl (same ▸ collection)
  · rw [Grammar.isCollection_of_unify unified, Bool.and_self] at apart
    exact Or.inr ⟨apart, (Grammar.unify_collection unified collection).2.1⟩
  · exact Or.inl (same ▸ collection)

namespace Registry

/-- An attribute takes its members from one of another name, and is itself the
one that an alias takes its members from. -/
def Relays (r : Registry) (family name target : String) : Prop :=
  (∃ home, r.AliasHop (family, name) (home, target)) ∧ target ≠ name ∧
    ∃ p, r.AliasHop p (family, name)

/-- An attribute has a grammar that is not that of a collection, but becomes so
when it is normalized once more. -/
def Unsettled (r : Registry) (name : String) : Prop :=
  ∃ family g, r.grammar? family name = some g ∧ g.isCollection = false ∧
    (Grammar.normalize g.text).isCollection = true

section Members

theorem backfillAttribute_origin (r : Registry) (home other : String) (b : Backfill)
    {family name : String} {a : Entity}
    (h : (r.backfillAttribute home other b).attribute? family name = some a) :
    ∃ e, r.attribute? family name = some e ∧ a.members = e.members ∧ a.grammar = e.grammar := by
  by_cases here : family = home ∧ name = other
  · obtain ⟨rfl, rfl⟩ := here
    cases b with
    | registered | kept => exact ⟨a, h, rfl, rfl⟩
    | sharing target =>
      have shared := attribute?_adjustAttribute r family name
        (fun e => { e with reference := some (.byAlias target none) }) (fun _ => rfl) family name
      rw [if_pos ⟨rfl, rfl⟩] at shared
      obtain ⟨e, found, rfl⟩ := Option.map_eq_some_iff.mp (shared.symm.trans h)
      exact ⟨e, found, rfl, rfl⟩
    | dropped obsolete =>
      rw [backfillAttribute] at h
      split at h
      · exact ⟨a, h, rfl, rfl⟩
      · have erased := attribute?_eraseAttribute r family name family name
        rw [adjustFamily, if_pos ⟨rfl, rfl⟩] at erased
        have gone : none = some a := by
          rw [← erased]
          cases obsolete <;> exact h
        cases gone
  · rw [attribute?_backfillAttribute_other r here] at h
    exact ⟨a, h, rfl, rfl⟩

/-- The backfill gives no attribute members or another grammar. -/
theorem backfill_origin {r : Registry} {family name : String} {a : Entity}
    (h : r.backfill.attribute? family name = some a) :
    ∃ e, r.attribute? family name = some e ∧ a.members = e.members ∧ a.grammar = e.grammar := by
  rw [backfill] at h
  revert a
  refine List.foldlRecOn (motive := fun r' : Registry => ∀ {a},
    r'.attribute? family name = some a →
      ∃ e, r.attribute? family name = some e ∧ a.members = e.members ∧ a.grammar = e.grammar)
    _ _ (fun {a} h => ⟨a, h, rfl, rfl⟩) ?_
  rintro r' earlier ⟨home, lacking⟩ - a h
  obtain ⟨b, found, members, grammar⟩ := backfillAttribute_origin r' _ _ _ h
  obtain ⟨e, known, same⟩ := earlier found
  exact ⟨e, known, members.trans same.1, grammar.trans same.2⟩

/-- An attribute with members is left alone from the time aliases are merged until
the audit, but for the mark that it is emitted. -/
theorem attribute?_beforeAudit (r : Registry) (family name : String) {members : List Entity}
    (full : members ≠ []) (reference : Option Reference) :
    (∃ a, r.registerCollections.backfill.attribute? family name = some a ∧
        a.members = members ∧ a.reference = reference) ↔
      ∃ c, r.attribute? family name = some c ∧ c.members = members ∧ c.reference = reference := by
  have marked : (∃ a, r.registerCollections.attribute? family name = some a ∧
        a.members = members ∧ a.reference = reference) ↔
      ∃ c, r.attribute? family name = some c ∧ c.members = members ∧ c.reference = reference := by
    have same := view_registerCollections (fun e => (e.members, e.reference)) (fun _ _ => rfl) r
      family name
    simpa [Option.map_eq_some_iff] using congrArg (· = some (members, reference)) same
  rw [← marked]
  by_cases lacks : ∃ e, r.registerCollections.attribute? family name = some e ∧ e.members = []
  · -- Members are needed on either side, and the backfill provides none.
    obtain ⟨e, known, none⟩ := lacks
    constructor
    · rintro ⟨a, found, rfl, -⟩
      obtain ⟨e', known', same, -⟩ := backfill_origin found
      obtain rfl : e = e' := Option.some.inj (known.symm.trans known')
      exact absurd (same.trans none) full
    · rintro ⟨e', known', rfl, -⟩
      obtain rfl : e = e' := Option.some.inj (known.symm.trans known')
      exact absurd none full
  · rw [attribute?_backfill]
    intro e known
    have full : e.isCollection = true := by
      simpa [Entity.isCollection] using fun none => lacks ⟨e, known, none⟩
    simp [Entity.isMemberless, full]

end Members

section Aliases

/-- An attribute has no members. -/
def Empties (r : Registry) (p : String × String) : Prop :=
  ∀ e, r.attribute? p.1 p.2 = some e → e.members = []

/-- A merge that takes nothing to an attribute gives it no members. -/
theorem empties_mergeAlias {r : Registry} {p : String × String} (h : r.Empties p) (m : AliasMerge)
    (elsewhere : p ≠ (m.targetFamily, m.target)) : (r.mergeAlias m).Empties p := by
  rcases r.mergeAlias_cases m with
    ⟨-, same⟩ | ⟨-, same⟩ | ⟨target, source, moved, -, -, -, -, after⟩
  · rw [same]
    exact h
  · rw [same]
    exact h
  · intro e found
    rw [after, if_neg fun here => elsewhere (Prod.ext here.1 here.2)] at found
    split at found
    · cases found
      rfl
    · exact h e found

/-- An attribute that has been merged into another one has no members then, unless
the merge is reported. -/
theorem mergeAlias_empties {r : Registry} {m : AliasMerge} (quiet : (r.mergeAlias m).findings = [])
    (elsewhere : (m.family, m.name) ≠ (m.targetFamily, m.target)) :
    (r.mergeAlias m).Empties (m.family, m.name) := by
  rcases r.mergeAlias_cases m with
    ⟨-, same⟩ | ⟨absent, same⟩ | ⟨target, source, moved, -, -, -, -, after⟩
  · rw [same] at quiet
    simp [report] at quiet
  · rw [same]
    intro e found
    rw [absent] at found
    cases found
  · intro e found
    rw [after, if_neg fun here => elsewhere (Prod.ext here.1 here.2), if_pos ⟨rfl, rfl⟩] at found
    cases found
    rfl

/-- An alias of another name has no members once all aliases are merged without a
finding, unless an alias leads to it in turn: it has had none from the start, or its
own merge has taken them, and no other merge brings any. -/
theorem mergeAliases_empties {r : Registry} (quiet : r.mergeAliases.findings = [])
    {p : String × String} {target : String} (hop : ∃ home, r.AliasHop p (home, target)) (other : target ≠ p.2)
    (unreached : ∀ q, ¬ r.AliasHop q p) : r.mergeAliases.Empties p := by
  have elsewhere : ∀ m ∈ r.aliasMerges, p ≠ (m.targetFamily, m.target) := by
    rintro m called rfl
    exact unreached _ (aliasHop_of_mem_aliasMerges called)
  obtain ⟨home, e, family, found, refers, -⟩ := hop
  by_cases none : e.members = []
  · have start : r.Empties p := by
      intro e' known
      obtain rfl : e = e' := Option.some.inj (found.symm.trans known)
      exact none
    exact List.foldlRecOn (motive := fun r' : Registry => r'.Empties p) _ _ start
      fun r' kept m called => empties_mergeAlias kept m (elsewhere m called)
  · have named : e.name = p.2 := name_of_attribute? found
    let own : AliasMerge := ⟨p.1, e.name, family.getD p.1, target⟩
    have itself : (own.family, own.name) = p := Prod.ext rfl named
    have called : own ∈ r.aliasMerges := by
      refine List.mem_filterMap.mpr ⟨(p.1, e), mem_attributes_of_attribute? found, ?_⟩
      simp [AliasMerge.ofAttribute?, refers, Entity.isCollection, none, named, other, own]
    have settle : ∀ r' : Registry, True → ∀ m ∈ r.aliasMerges, (m.family, m.name) = p →
        (r'.mergeAlias m).findings = [] → (r'.mergeAlias m).Empties p :=
      fun _ _ m called same quiet => same ▸ mergeAlias_empties quiet (same ▸ elsewhere m called)
    have stay : ∀ r' : Registry, True → ∀ m : AliasMerge,
        ((m.family, m.name) = p → r'.findings = [] → r'.Empties p) → ∀ other ∈ r.aliasMerges,
          (m.family, m.name) = p → (r'.mergeAlias other).findings = [] →
            (r'.mergeAlias other).Empties p :=
      fun r' _ _ before other called same quiet => empties_mergeAlias
        (before same ((continues_mergeAlias r' other).quiet quiet)) other (elsewhere other called)
    have all := foldl_settles
      (motive := fun (m : AliasMerge) (r' : Registry) => (m.family, m.name) = p →
        r'.findings = [] → r'.Empties p)
      (fun _ => True) (fun _ _ _ _ => trivial) settle stay (b := r) trivial
    exact all own called itself quiet

/-- An alias of another name that has members after a merge without a finding has
been given them by an alias that leads to it. -/
theorem relays_of_members {r : Registry} (quiet : r.mergeAliases.findings = [])
    {family name target : String} {c : Entity}
    (found : r.mergeAliases.attribute? family name = some c) (full : c.members ≠ [])
    (refers : c.alias? = some target) (other : target ≠ name) : r.Relays family name target := by
  have reference := view_mergeAliases Entity.reference (fun _ _ => rfl) r family name
  rw [found, Option.map_some, eq_comm, Option.map_eq_some_iff] at reference
  obtain ⟨e, known, same⟩ := reference
  have hop : ∃ home, r.AliasHop (family, name) (home, target) := by
    rw [Entity.alias?, ← same] at refers
    obtain ⟨reference, given, points⟩ := Option.bind_eq_some_iff.mp refers
    cases reference with
    | byAlias collection home =>
      cases points
      exact ⟨_, e, home, known, given, rfl⟩
    | byName | byGroup | byMembers => cases points
  refine ⟨hop, other, ?_⟩
  by_contra unreached
  exact full (mergeAliases_empties quiet hop other (fun q hop => unreached ⟨q, hop⟩) c found)

end Aliases

section Families

/-- A declaration stands for one of those given, which has the grammar of a
collection if it has, unless a declaration of that name is about to take it. -/
def IsCanonical (attributes : List (String × Entity)) (e : Entity) : Prop :=
  (∃ a ∈ attributes, a.2.name = e.name ∧ a.2.reference = e.reference ∧
    (e.grammar.isCollection = true → a.2.grammar.isCollection = true)) ∨
  ∃ a ∈ attributes, a.2.name = e.name ∧ a.2.grammar.isCollection = false ∧
    (Grammar.normalize a.2.grammar.text).isCollection = true

theorem IsCanonical.reconcile {attributes : List (String × Entity)} {kept e both : Entity}
    (h : IsCanonical attributes kept) {family : String} (member : (family, e) ∈ attributes)
    (named : kept.name = e.name) (reconciled : kept.reconcile? e = some both) :
    IsCanonical attributes both := by
  obtain ⟨name, reference, grammar⟩ := Entity.reconcile?_origin reconciled
  rcases h with ⟨a, listed, sameName, sameReference, collection⟩ | ⟨a, listed, sameName, unsettled⟩
  · by_cases turns : both.grammar.isCollection = true → kept.grammar.isCollection = true
    · exact Or.inl ⟨a, listed, sameName.trans name.symm, sameReference.trans reference.symm,
        fun is => collection (turns is)⟩
    · obtain ⟨is, was⟩ := Classical.not_imp.mp turns
      exact Or.inr ⟨_, member, named.symm.trans name.symm, (grammar is).resolve_left was⟩
  · exact Or.inr ⟨a, listed, sameName.trans name.symm, unsettled⟩

theorem canon_origin (r : Registry) : ∀ e ∈ r.canon.1.toList, IsCanonical r.attributes e := by
  intro e canonical
  have origin : ∀ c ∈ r.canon.1.find? e.name, IsCanonical r.attributes c := by
    refine canonInduction (motive := fun _ found => ∀ c ∈ found, IsCanonical r.attributes c) r
      e.name (fun c none => by cases none) fun _ found family d known earlier stands c is => ?_
    have listed := mem_attributes_of_attribute? known
    obtain rfl := Option.some.inj is
    cases found with
    | none => exact Or.inl ⟨_, listed, rfl, rfl, id⟩
    | some kept =>
      have named : kept.name = d.name := (stands kept rfl).1.trans (name_of_attribute? known).symm
      cases reconciled : kept.reconcile? d with
      | none => simpa [reconciled] using earlier kept rfl
      | some both => simpa [reconciled] using (earlier kept rfl).reconcile listed named reconciled
  exact origin e (Table.find?_of_mem canonical)

end Families

end Registry

theorem Descriptor.underlying_of_collection {r : Registry} {e : Entity} {d : Descriptor}
    (h : ofEntity? r e = some d) (kind : d.kind = .collection) :
    e.grammar.isCollection = true ∧ e.collectionName ∉ untypedCollections ∧
      d.underlying = some e.collectionName := by
  obtain ⟨i, inferred, rfl⟩ := ofEntity?_eq_some_iff.mp h
  exact Inference.underlying_of_collection inferred kind

namespace Model

section Closure

variable {records : Records}

theorem grammar?_of_filled {family name : String} {g : Grammar}
    (h : (filled records).grammar? family name = some g) :
    (Registry.ofRecords records).grammar? family name = some g := by
  obtain ⟨a, found, rfl⟩ := Option.map_eq_some_iff.mp h
  rw [filled] at found
  obtain ⟨e, known, -, same⟩ := Registry.backfill_origin found
  rw [← Registry.grammar?_congr (families_defined records), ← Registry.grammar?_mergeAliases,
    ← Registry.grammar?_registerCollections, Registry.grammar?, known, Option.map_some, same]

theorem definesCollection_of_pointer (quiet : Quiet records) {family : String} {a : Entity}
    (listed : (family, a) ∈ (filled records).attributes) {p : CollectionPointer}
    (points : p ∈ a.pointers) : (resolve records).DefinesCollection p.target := by
  obtain ⟨k, registered, named, -⟩ :=
    Registry.audit_covers quiet.audited listed points
  rw [collections_filled] at registered
  exact named ▸ definesCollection_of_registered quiet registered

/-- What an entity inside a registered collection points at is defined. The
collection is an attribute that the audit looks at. -/
theorem definesCollection_of_inside (quiet : Quiet records) {k : Entity}
    (registered : k ∈ (assembled records).collections.toList) {e : Entity}
    (inside : e.Inside k.members) (collection : e.grammar.isCollection = true)
    (modelled : e.collectionName ∉ untypedCollections) (none : e.members = []) :
    (resolve records).DefinesCollection e.collectionName := by
  obtain ⟨family, c, listed, rfl⟩ := registered_from_attribute quiet registered
  have full : c.members ≠ [] := by
    cases inside with
    | here member => exact List.ne_nil_of_mem member
    | deeper member _ => exact List.ne_nil_of_mem member
  obtain ⟨a, found, members, -⟩ := (Registry.attribute?_beforeAudit _ family c.name full
    c.reference).mpr ⟨c, Registry.mem_attributes_iff.mp listed, rfl, rfl⟩
  rw [← filled] at found
  refine definesCollection_of_pointer quiet (Registry.mem_attributes_of_attribute? found)
    (p := ⟨e.collectionName, e⟩) ?_
  rw [Entity.pointers_eq, members]
  exact List.mem_append_right _
    (inside.mem_pointersIn (Entity.asPointer?_of_memberless collection modelled none))

/-- What a collection attribute points at is defined, unless it relays. One without
members has been audited; one with members is registered under its own name. -/
theorem definesCollection_of_attribute (quiet : Quiet records) {family : String} {a : Entity}
    (listed : (family, a) ∈ (filled records).attributes)
    (collection : a.grammar.isCollection = true)
    (modelled : a.collectionName ∉ untypedCollections) :
    (resolve records).DefinesCollection a.collectionName ∨
      (Registry.ofRecords records).Relays family a.name a.collectionName := by
  by_cases none : a.members = []
  · have points := Entity.asPointer?_of_memberless collection modelled none
    refine Or.inl (definesCollection_of_pointer quiet listed (p := ⟨a.collectionName, a⟩) ?_)
    rw [Entity.pointers_eq, points]
    exact List.mem_cons_self
  · rw [filled] at listed
    obtain ⟨c, found, members, reference⟩ := (Registry.attribute?_beforeAudit _ family a.name none
      a.reference).mp ⟨a, Registry.mem_attributes_iff.mp listed, rfl, rfl⟩
    have named : c.name = a.name := Registry.name_of_attribute? found
    have full : c.members ≠ [] := members ▸ none
    by_cases own : a.collectionName = a.name
    · obtain ⟨kept, registered, -⟩ := Registry.registerCollections_registers quiet.registered
        (Registry.mem_attributes_of_attribute? found) (by simpa [Entity.isCollection] using full)
      obtain ⟨member, same⟩ := Table.mem_of_find? registered
      rw [← Registry.collections_assemble, ← assembled] at member
      rw [own, ← named, ← same]
      exact Or.inl (definesCollection_of_registered quiet member)
    · have refers : c.alias? = some a.collectionName := by
        rw [Entity.collectionName] at own ⊢
        rw [show c.alias? = a.alias? by rw [Entity.alias?, Entity.alias?, reference]]
        cases points : a.alias? with
        | none => simp [points] at own
        | some target => rfl
      have relays := Registry.relays_of_members quiet.merged found full refers own
      rw [Registry.Relays, aliasHop_defined] at relays
      exact Or.inr relays

end Closure

/-- In a model without warnings collections are bound to definitions. A type of
this kind has types of its own members, or is bound to a collection that is defined;
unless it is that of an attribute that relays members, or of one whose grammar is
that of a collection only when it is normalized once more. -/
theorem collections_name_definitions (records : Records)
    (quiet : (resolve records).warnings = []) :
    let r := Registry.ofRecords records
    let m := resolve records
    ∀ o ∈ m.walk, o.type.kind = .collection → o.type.members ≠ [] ∨
      ∃ target, o.type.underlying = some target ∧ (m.DefinesCollection target ∨
        (o.site = .top ∧ ((∃ family, r.Relays family o.type.name target) ∨
          r.Unsettled o.type.name))) := by
  intro r m o here kind
  have silent : Quiet records := quiet_of_warnings quiet
  rw [walk_resolve] at here
  rcases Typing.walk_origin _ o here with
    ⟨k, registered, e, inside, typed⟩ | ⟨top, e, canonical, found⟩
  · by_cases none : e.members = []
    · obtain ⟨collection, modelled, bound⟩ :=
        Descriptor.underlying_of_collection typed.ofEntity?_bare kind
      refine Or.inr ⟨_, bound, Or.inl ?_⟩
      exact definesCollection_of_inside silent registered inside collection modelled none
    · exact Or.inl (typed.members_ne_nil none)
  · obtain ⟨collection, modelled, bound⟩ := Descriptor.underlying_of_collection found kind
    have named : e.name = o.type.name := (Descriptor.name_ofEntity? found).symm
    refine Or.inr ⟨_, bound, ?_⟩
    rw [types_assembled] at canonical
    rcases Registry.canon_origin _ e canonical with
      ⟨⟨family, a⟩, listed, sameName, sameReference, grammar⟩ |
      ⟨⟨family, a⟩, listed, sameName, unsettled⟩
    · have target : a.collectionName = e.collectionName := by
        rw [Entity.collectionName, Entity.collectionName, Entity.alias?, Entity.alias?,
          sameName, sameReference]
      rcases definesCollection_of_attribute silent listed (grammar collection)
        (target ▸ modelled) with defined | relays
      · exact Or.inl (target ▸ defined)
      · rw [target, show a.name = o.type.name from sameName.trans named] at relays
        exact Or.inr ⟨top, Or.inl ⟨family, relays⟩⟩
    · refine Or.inr ⟨top, Or.inr ⟨family, a.grammar, grammar?_of_filled ?_, unsettled⟩⟩
      rw [Registry.grammar?, ← named, ← show a.name = e.name from sameName,
        Registry.mem_attributes_iff.mp listed]
      rfl

/-- A collection with a member that shares the members of another collection. -/
def sheets : Records where
  attributes :=
    [{ family := "Job Template", name := "media-col", grammar := some "collection",
       member := some "media-color" },
     { family := "Job Template", name := "media-col", grammar := some "keyword | name",
       member := some "media-color" },
     { family := "Job Template", name := "job-sheets-col", grammar := some "collection",
       member := some "media-col" }]

theorem collections_name_definitions_of_sheets :
    (resolve sheets).warnings = [] ∧
      (∃ c ∈ (resolve sheets).collections, ∃ d ∈ c.members, d.kind = .collection) ∧
      ∀ o ∈ (resolve sheets).walk, o.type.kind = .collection → o.type.members ≠ [] ∨
        ∃ target, o.type.underlying = some target ∧ ((resolve sheets).DefinesCollection target ∨
          (o.site = .top ∧
            ((∃ family, (Registry.ofRecords sheets).Relays family o.type.name target) ∨
              (Registry.ofRecords sheets).Unsettled o.type.name))) := by
  obtain ⟨silent, nested⟩ : ((assembled sheets).findings = [] ∧
      (Typing.ofCollections (assembled sheets)).findings = [] ∧
      ∀ e ∈ (assembled sheets).types.toList,
        (Descriptor.ofEntity? (assembled sheets) e).isSome = true) ∧
      ∃ c ∈ (Typing.ofCollections (assembled sheets)).collections,
        ∃ d ∈ c.members, d.kind = .collection := by
    decide +kernel
  have quiet : (resolve sheets).warnings = [] := warnings_eq_nil_iff.mpr silent
  refine ⟨quiet, ?_, collections_name_definitions sheets quiet⟩
  rw [collections_resolve, Typing.collections_ofRegistry]
  exact nested

/-- Every type of the kind of collections has types of its own members, or is bound
to a collection that is defined. -/
def CollectionsClosed (m : Model) : Prop :=
  ∀ o ∈ m.walk, o.type.kind = .collection → o.type.members ≠ [] ∨
    ∃ target, o.type.underlying = some target ∧ m.DefinesCollection target

/-- A registry in which nothing is found, and an attribute in it that is bound to a
collection that is not defined, are enough. -/
theorem quiet_not_collectionsClosed {records : Records} (target : String)
    (h : ((assembled records).findings = [] ∧
        (Typing.ofCollections (assembled records)).findings = [] ∧
        ∀ e ∈ (assembled records).types.toList,
          (Descriptor.ofEntity? (assembled records) e).isSome = true) ∧
      (∃ e ∈ (assembled records).types.toList,
        (Descriptor.ofEntity? (assembled records) e).any
          (fun d => d.kind == .collection && d.underlying == some target) = true) ∧
      ∀ c ∈ (Typing.ofCollections (assembled records)).collections, c.name ≠ target) :
    (resolve records).warnings = [] ∧ ¬ (resolve records).CollectionsClosed := by
  obtain ⟨quiet, ⟨e, canonical, described⟩, undefined⟩ := h
  refine ⟨warnings_eq_nil_iff.mpr quiet, fun closed => ?_⟩
  obtain ⟨d, found, is⟩ := (Option.any_eq_true _ _).mp described
  simp only [Bool.and_eq_true, beq_iff_eq] at is
  have here : ⟨.top, d⟩ ∈ (resolve records).walk := by
    rw [walk_resolve, Typing.walk, walkAll, Typing.types_ofRegistry]
    refine List.mem_append_right _ (List.mem_map_of_mem (List.mem_filterMap.mpr ⟨e, ?_, found⟩))
    exact List.mem_mergeSort.mpr canonical
  rcases closed _ here is.1 with full | ⟨name, bound, c, defined, named⟩
  · exact full (Descriptor.members_ofEntity? found)
  · obtain rfl : target = name := Option.some.inj (is.2.symm.trans bound)
    rw [collections_resolve, Typing.collections_ofRegistry] at defined
    exact undefined c defined named

/-- A collection without members that shares those of one that is not there, and is
given members by a collection that shares its own. -/
def strayCover : Records where
  attributes :=
    [{ family := "Job Template", name := "cover-back", grammar := some "collection",
       member :=
         some "<Member attributes are the same as the \"cover-front\" Job Template attribute>" },
     { family := "Job Template", name := "insert-sheet", grammar := some "collection",
       member :=
         some "<Member attributes are the same as the \"cover-back\" Job Template attribute>" },
     { family := "Job Template", name := "insert-sheet", grammar := some "keyword | name",
       member := some "media" }]

/-- Two families that give an attribute the grammar of a collection in more
parentheses than are taken off at once. -/
def wrappedCover : Records where
  attributes :=
    [{ family := "Job Template", name := "cover-back",
       grammar := some "(((((((((collection)))))))))" },
     { family := "Document Template", name := "cover-back",
       grammar := some "1setOf (((((((((collection)))))))))" }]

/-- Each of the exceptions is met without a warning. -/
theorem collections_not_closed :
    ((resolve strayCover).warnings = [] ∧ ¬ (resolve strayCover).CollectionsClosed) ∧
      (resolve wrappedCover).warnings = [] ∧ ¬ (resolve wrappedCover).CollectionsClosed :=
  ⟨quiet_not_collectionsClosed "cover-front" (by decide +kernel),
    quiet_not_collectionsClosed "cover-back" (by decide +kernel)⟩

end Model

end PrintRegistry
