import PrintRegistry.Proofs.Entity
import PrintRegistry.Proofs.Typing

/-!
The walk over a typing: all descriptors at their places, collections first and
each member before its own members. The indexes kept while descriptors are made
are functions of this walk, so a collection that is left out leaves nothing in
them.
-/

namespace PrintRegistry

/-- A descriptor at its place. -/
structure Occurrence where
  site : Site
  type : Descriptor

namespace Occurrence

def usage (o : Occurrence) : String :=
  o.site.usage o.type.name

/-- Whether the descriptor is bound to an enumeration. -/
def isUseOf (enum : String) (o : Occurrence) : Bool :=
  o.type.kind == .enumeration && o.type.underlying == some enum

def isKeyValue (o : Occurrence) : Bool :=
  o.type.kind == .keyValue

end Occurrence

mutual

/-- A descriptor at a place, and then its members inside. -/
def Descriptor.walk (site : Site) : Descriptor → List Occurrence
  | d@{ members, .. } => ⟨site, d⟩ :: walkMembers (site.child d.name) members

/-- The members at a place, in order. -/
def walkMembers (site : Site) : List Descriptor → List Occurrence
  | [] => []
  | d :: ds => d.walk site ++ walkMembers site ds

end

def CollectionDefinition.walk (c : CollectionDefinition) : List Occurrence :=
  walkMembers (Site.top.child c.name) c.members

/-- All members of collections, in order, and then all attributes. -/
def walkAll (collections : List CollectionDefinition) (types : List Descriptor) :
    List Occurrence :=
  collections.flatMap CollectionDefinition.walk ++ types.map (⟨.top, ·⟩)

def Typing.walk (t : Typing) : List Occurrence :=
  walkAll t.collections t.types

theorem Descriptor.walk_eq (site : Site) (d : Descriptor) :
    d.walk site = ⟨site, d⟩ :: walkMembers (site.child d.name) d.members := by
  cases d
  rw [Descriptor.walk]

namespace Usages

/-- Takes note of all descriptors of a walk, without their members. -/
def recordAll (u : Usages) (w : List Occurrence) : Usages :=
  w.foldl (fun u o => u.record o.site o.type.bare) u

@[simp] theorem recordAll_nil (u : Usages) : u.recordAll [] = u := rfl

@[simp] theorem recordAll_cons (u : Usages) (o : Occurrence) (w : List Occurrence) :
    u.recordAll (o :: w) = (u.record o.site o.type.bare).recordAll w := rfl

theorem recordAll_append (u : Usages) (v w : List Occurrence) :
    u.recordAll (v ++ w) = (u.recordAll v).recordAll w :=
  List.foldl_append

/-- The uses of an enumeration are put in their place in the ascending index.
Every other enumeration keeps its entry. -/
theorem find?_addPlace {us : List EnumUsage} (ascending : (Named.names us).Pairwise (· < ·))
    (enum place other : String) :
    Named.find? (addPlace enum place us) other =
      if other = enum then
        some ⟨enum, Named.put (((Named.find? us enum).map EnumUsage.places).getD []) place⟩
      else Named.find? us other := by
  induction us with
  | nil =>
    by_cases same : other = enum
    · simp [addPlace, Named.find?, nameOf, same, Named.put]
    · simp [addPlace, Named.find?, nameOf, same, Ne.symm same]
  | cons u us ih =>
    simp only [Named.names, List.map_cons, List.pairwise_cons] at ascending
    rw [addPlace]
    by_cases here : enum = u.enum
    · by_cases same : other = enum
      · simp [Named.find?, nameOf, ← here, same]
      · simp [Named.find?, nameOf, ← here, same, Ne.symm same]
    · by_cases before : enum < u.enum
      · -- The entry is new: all later enumerations are greater.
        have absent : Named.find? (u :: us) enum = none := by
          rw [Named.find?_eq_none_iff]
          intro member
          rcases List.mem_cons.mp member with same | later
          · exact here same
          · exact String.lt_asymm before (ascending.1 enum later)
        by_cases same : other = enum
        · rw [absent]
          simp [here, before, same, Named.find?, nameOf, Named.put]
        · simp [here, before, same, Ne.symm same, Named.find?, nameOf]
      · rw [if_neg here, if_neg before]
        by_cases same : other = enum
        · have passed : ¬ u.enum = enum := Ne.symm here
          simpa [Named.find?, nameOf, same, passed] using ih ascending.2
        · by_cases first : u.enum = other
          · simp [Named.find?, nameOf, first, same]
          · simpa [Named.find?, nameOf, first, same] using ih ascending.2

theorem names_addPlace_subset {us : List EnumUsage} {enum place name : String}
    (h : name ∈ Named.names (addPlace enum place us)) : name = enum ∨ name ∈ Named.names us := by
  induction us with
  | nil => simpa [addPlace, Named.names, nameOf] using h
  | cons u us ih =>
    rw [addPlace] at h
    split at h
    · exact Or.inr (by simpa [Named.names, nameOf] using h)
    · split at h
      · simpa [Named.names, nameOf] using h
      · rcases List.mem_cons.mp h with first | later
        · exact Or.inr (by simp [Named.names, first])
        · exact (ih later).imp_right (List.mem_cons_of_mem _)

theorem ascending_addPlace {us : List EnumUsage} (h : (Named.names us).Pairwise (· < ·))
    (enum place : String) : (Named.names (addPlace enum place us)).Pairwise (· < ·) := by
  induction us with
  | nil => simp [addPlace, Named.names]
  | cons u us ih =>
    simp only [Named.names, List.map_cons, List.pairwise_cons] at h
    rw [addPlace]
    split
    · simpa [Named.names, nameOf] using h
    · rename_i different
      split
      · rename_i before
        simp only [Named.names, List.map_cons, List.pairwise_cons, List.mem_cons]
        refine ⟨?_, h⟩
        rintro name (first | later)
        · exact first ▸ before
        · exact String.lt_trans before (h.1 name later)
      · rename_i notBefore
        have after : u.enum < enum := by
          by_contra notAfter
          exact different (String.le_antisymm (String.not_lt.mp notAfter) (String.not_lt.mp notBefore))
        simp only [Named.names, List.map_cons, List.pairwise_cons]
        refine ⟨?_, ih h.2⟩
        intro name member
        rcases names_addPlace_subset member with same | later
        · exact same ▸ after
        · exact h.1 name later

/-- The places at which a walk uses an enumeration, in order. -/
def placesIn (w : List Occurrence) (enum : String) : List String :=
  (w.filter (Occurrence.isUseOf enum)).map Occurrence.usage

/-- The blocks of keys and values that a walk comes across, without members. -/
def keyValuesIn (w : List Occurrence) : List Descriptor :=
  (w.filter Occurrence.isKeyValue).map fun o => o.type.bare

theorem record_enums (u : Usages) (o : Occurrence) :
    (∃ enum, o.isUseOf enum = true ∧
      (u.record o.site o.type.bare).enums = addPlace enum o.usage u.enums) ∨
    ((∀ enum, o.isUseOf enum = false) ∧ (u.record o.site o.type.bare).enums = u.enums) := by
  obtain ⟨site, d⟩ := o
  cases kind : d.kind <;> cases bound : d.underlying <;>
    simp [record, Descriptor.bare, Occurrence.isUseOf, Occurrence.usage, kind, bound]

theorem record_keyValues (u : Usages) (o : Occurrence) :
    (u.record o.site o.type.bare).keyValues =
      if o.isKeyValue then Named.put u.keyValues o.type.bare else u.keyValues := by
  obtain ⟨site, d⟩ := o
  cases kind : d.kind <;> cases bound : d.underlying <;>
    simp [record, Descriptor.bare, Occurrence.isKeyValue, kind, bound]

theorem isUseOf_unique {o : Occurrence} {first second : String} (h : o.isUseOf first = true)
    (h' : o.isUseOf second = true) : first = second := by
  simp only [Occurrence.isUseOf, Bool.and_eq_true, beq_iff_eq] at h h'
  exact Option.some.inj (h.2.symm.trans h'.2)

theorem placesIn_concat (w : List Occurrence) (o : Occurrence) (enum : String) :
    placesIn (w ++ [o]) enum =
      if o.isUseOf enum then placesIn w enum ++ [o.usage] else placesIn w enum := by
  by_cases use : o.isUseOf enum = true <;> simp [placesIn, use]

/-- The index of enumerations after a walk is ascending, and lists under an
enumeration the places where the walk uses it, each once. -/
theorem enums_recordAll (w : List Occurrence) :
    (Named.names (recordAll {} w).enums).Pairwise (· < ·) ∧
      ∀ enum, Named.find? (recordAll {} w).enums enum =
        if placesIn w enum = [] then none else some ⟨enum, (placesIn w enum).eraseDups⟩ := by
  -- The walk grows at its end: the last descriptor is the last one recorded.
  induction w using List.reverseRecOn with
  | nil => exact ⟨List.Pairwise.nil, fun _ => rfl⟩
  | append_singleton w o ih =>
    obtain ⟨ascending, found⟩ := ih
    rw [recordAll_append, recordAll_cons, recordAll_nil]
    rcases record_enums (recordAll {} w) o with ⟨used, use, step⟩ | ⟨unused, step⟩
    · rw [step]
      refine ⟨ascending_addPlace ascending used o.usage, fun enum => ?_⟩
      rw [find?_addPlace ascending, found, found, placesIn_concat]
      by_cases same : enum = used
      · subst same
        have earlier : ((if placesIn w enum = [] then none
            else some (⟨enum, (placesIn w enum).eraseDups⟩ : EnumUsage)).map
              EnumUsage.places).getD [] = (placesIn w enum).eraseDups := by
          split
          · rename_i none
            simp [none]
          · rfl
        rw [earlier, Named.put_eraseDups]
        simp [use]
      · have other : o.isUseOf enum = false := by
          by_contra bound
          exact same (isUseOf_unique (Bool.not_eq_false _ ▸ bound) use)
        simp [same, other]
    · rw [step]
      refine ⟨ascending, fun enum => ?_⟩
      rw [found, placesIn_concat, unused enum]
      rfl

/-- The blocks of keys and values after a walk are those it comes across, a
later one in the place of an earlier one of its name. -/
theorem keyValues_recordAll (u : Usages) (w : List Occurrence) :
    (u.recordAll w).keyValues = Named.putAll u.keyValues (keyValuesIn w) := by
  induction w generalizing u with
  | nil => rfl
  | cons o w ih =>
    rw [recordAll_cons, ih, record_keyValues]
    by_cases block : o.isKeyValue = true <;> simp [keyValuesIn, block, Named.putAll]

end Usages

/-- If typing each member records the walk over its type, so does typing them
one after another. -/
private theorem typeMembers_usages_of {r : Registry} (ms : List Entity)
    (single : ∀ m ∈ ms, ∀ {site u u' d}, m.type r site u = .ok (d, u') →
      u' = u.recordAll (d.walk site)) :
    ∀ {site u u' ds}, typeMembers r site u ms = .ok (ds, u') →
      u' = u.recordAll (walkMembers site ds) := by
  induction ms with
  | nil =>
    intro site u u' ds h
    cases h
    rfl
  | cons m ms ih =>
    intro site u u' ds h
    obtain ⟨d, ds', between, first, rest, rfl⟩ := typeMembers_cons_ok h
    have here := single m List.mem_cons_self first
    have later := ih (fun x member => single x (List.mem_cons_of_mem m member)) rest
    rw [later, here, ← Usages.recordAll_append, walkMembers]

/-- Typing an entity records exactly the walk over its type: first the entity,
then what typing its members records. -/
theorem Entity.type_usages {r : Registry} (e : Entity) :
    ∀ {site u u' d}, e.type r site u = .ok (d, u') → u' = u.recordAll (d.walk site) := by
  induction e using Entity.memberInduction with
  | step e ih =>
    intro site u u' d typed
    obtain ⟨base, ds, found, inner, rfl⟩ := Entity.type_ok typed
    have recorded := typeMembers_usages_of e.members ih inner
    have named : base.name = e.name := Descriptor.name_ofEntity? found
    rw [Descriptor.walk_eq, Usages.recordAll_cons, Descriptor.bare_withMembers found, recorded,
      ← named]

theorem typeMembers_usages {r : Registry} {site : Site} {u u' : Usages} {ms : List Entity}
    {ds : List Descriptor} (h : typeMembers r site u ms = .ok (ds, u')) :
    u' = u.recordAll (walkMembers site ds) :=
  typeMembers_usages_of ms (fun m _ => m.type_usages) h

/-- A descriptor is the type of an entity, made at some place. -/
def Entity.HasType (r : Registry) (e : Entity) (d : Descriptor) : Prop :=
  ∃ site u u', e.type r site u = .ok (d, u')

/-- The descriptor is that of an entity, apart from its members. -/
def Occurrence.IsInferred (r : Registry) (o : Occurrence) : Prop :=
  ∃ e, Descriptor.ofEntity? r e = some o.type.bare

theorem Entity.HasType.ofEntity?_bare {r : Registry} {e : Entity} {d : Descriptor}
    (h : e.HasType r d) : Descriptor.ofEntity? r e = some d.bare := by
  obtain ⟨site, u, u', typed⟩ := h
  obtain ⟨base, ds, found, -, rfl⟩ := Entity.type_ok typed
  rw [Descriptor.bare_withMembers found, found]

theorem Entity.HasType.members_ne_nil {r : Registry} {e : Entity} {d : Descriptor}
    (h : e.HasType r d) (some : e.members ≠ []) : d.members ≠ [] := by
  obtain ⟨site, u, u', typed⟩ := h
  obtain ⟨base, ds, -, inner, rfl⟩ := Entity.type_ok typed
  obtain ⟨m, member⟩ := List.exists_mem_of_ne_nil _ some
  obtain ⟨d, present, -⟩ := typeMembers_covers inner m member
  exact List.ne_nil_of_mem present

theorem Occurrence.IsInferred.inference {r : Registry} {o : Occurrence} (h : o.IsInferred r) :
    ∃ e i, Inference.ofEntity? r e = some i ∧ i.kind = o.type.kind ∧
      i.underlying = o.type.underlying := by
  obtain ⟨e, found⟩ := h
  obtain ⟨i, inferred, same⟩ := Descriptor.ofEntity?_eq_some_iff.mp found
  exact ⟨e, i, inferred, congrArg Descriptor.kind same, congrArg Descriptor.underlying same⟩

private theorem typeMembers_origin_of {r : Registry} (ms : List Entity)
    (single : ∀ m ∈ ms, ∀ {site u u' d}, m.type r site u = .ok (d, u') →
      ∀ place, ∀ o ∈ d.walk place, ∃ e : Entity, (e = m ∨ e.Inside m.members) ∧ e.HasType r o.type) :
    ∀ {site u u' ds}, typeMembers r site u ms = .ok (ds, u') →
      ∀ place, ∀ o ∈ walkMembers place ds, ∃ e : Entity, e.Inside ms ∧ e.HasType r o.type := by
  induction ms with
  | nil =>
    intro site u u' ds h place o member
    cases h
    cases member
  | cons m ms ih =>
    intro site u u' ds h place o member
    obtain ⟨d, ds', between, first, rest, rfl⟩ := typeMembers_cons_ok h
    rw [walkMembers] at member
    rcases List.mem_append.mp member with here | later
    · obtain ⟨e, origin, typed⟩ := single m List.mem_cons_self first place o here
      refine ⟨e, ?_, typed⟩
      rcases origin with rfl | inside
      · exact .here List.mem_cons_self
      · exact .deeper List.mem_cons_self inside
    · obtain ⟨e, inside, typed⟩ :=
        ih (fun x member => single x (List.mem_cons_of_mem m member)) rest place o later
      refine ⟨e, ?_, typed⟩
      cases inside with
      | here member => exact .here (List.mem_cons_of_mem m member)
      | deeper member inside => exact .deeper (List.mem_cons_of_mem m member) inside

/-- The walk over the type of an entity comes across the types of the entity and
of those inside it. -/
theorem Entity.type_origin {r : Registry} (e : Entity) :
    ∀ {site u u' d}, e.type r site u = .ok (d, u') → ∀ place, ∀ o ∈ d.walk place,
      ∃ x : Entity, (x = e ∨ x.Inside e.members) ∧ x.HasType r o.type := by
  induction e using Entity.memberInduction with
  | step e ih =>
    intro site u u' d typed place o member
    obtain ⟨base, ds, found, inner, same⟩ := Entity.type_ok typed
    rw [Descriptor.walk_eq] at member
    rcases List.mem_cons.mp member with here | inside
    · subst here
      exact ⟨e, Or.inl rfl, _, _, _, typed⟩
    · rw [same] at inside
      obtain ⟨x, within, typed⟩ := typeMembers_origin_of e.members ih inner _ o inside
      exact ⟨x, Or.inr within, typed⟩

theorem typeMembers_origin {r : Registry} {site : Site} {u u' : Usages} {ms : List Entity}
    {ds : List Descriptor} (h : typeMembers r site u ms = .ok (ds, u')) (place : Site) :
    ∀ o ∈ walkMembers place ds, ∃ e : Entity, e.Inside ms ∧ e.HasType r o.type :=
  typeMembers_origin_of ms (fun m _ => m.type_origin) h place

namespace Typing

/-- Before any attribute is added, a walk over collections alone grows at its end
with every collection. -/
theorem usages_ofCollections (r : Registry) :
    (ofCollections r).types = [] ∧
      (ofCollections r).usages = Usages.recordAll {} (ofCollections r).walk := by
  refine ofCollections_induction (motive := fun t => t.types = [] ∧
    t.usages = Usages.recordAll {} t.walk) r ⟨rfl, rfl⟩ ?_
  rintro t ⟨noTypes, recorded⟩ c
  rcases addCollection_cases r t c with ⟨ds, u, typed, step⟩ | ⟨m, step⟩
  · rw [step]
    refine ⟨noTypes, ?_⟩
    simp only [typeMembers_usages typed, recorded, ← Usages.recordAll_append, walk, walkAll,
      noTypes, CollectionDefinition.walk, List.flatMap_append, List.flatMap_cons,
      List.flatMap_nil, List.map_nil, List.append_nil]
  · rw [step]
    exact ⟨noTypes, recorded⟩

/-- The indexes hold what the walk over the result comes across and nothing
else. -/
theorem usages_ofRegistry (r : Registry) :
    (ofRegistry r).usages = Usages.recordAll {} (ofRegistry r).walk := by
  refine ofRegistry_induction (motive := fun t => t.usages = Usages.recordAll {} t.walk) r
    (usages_ofCollections r).2 ?_
  intro t recorded e
  rcases addAttribute_cases r t e with ⟨d, found, step⟩ | ⟨-, step⟩
  · rw [step]
    have bare : d.bare = d := Descriptor.bare_withMembers found d.members
    have longer : walk { t with types := t.types ++ [d], usages := t.usages.record .top d } =
        t.walk ++ [⟨.top, d⟩] := by
      simp [walk, walkAll]
    rw [longer, Usages.recordAll_append, ← recorded, Usages.recordAll_cons, bare]
    rfl
  · rw [step]
    exact recorded

theorem exists_use_of_mem_enums {r : Registry} {u : EnumUsage}
    (h : u ∈ (ofRegistry r).usages.enums) :
    ∃ o ∈ (ofRegistry r).walk, o.isUseOf u.enum = true := by
  rw [usages_ofRegistry] at h
  obtain ⟨entry, found⟩ := Named.find?_isSome_iff.mpr (Named.mem_names h)
  rw [(Usages.enums_recordAll _).2] at found
  split at found
  · cases found
  · rename_i used
    obtain ⟨place, listed⟩ := List.exists_mem_of_ne_nil _ used
    obtain ⟨o, here, -⟩ := List.mem_map.mp listed
    exact ⟨o, List.mem_filter.mp here⟩

/-- What the walk comes across is the type of an entity inside a registered
collection, or the descriptor of a canonical attribute. -/
theorem walk_origin (r : Registry) : ∀ o ∈ (ofRegistry r).walk,
    (∃ k ∈ r.collections.toList, ∃ e : Entity, e.Inside k.members ∧ e.HasType r o.type) ∨
      (o.site = .top ∧ ∃ e ∈ r.types.toList, Descriptor.ofEntity? r e = some o.type) := by
  have collections : ∀ c ∈ (ofCollections r).collections, ∀ o ∈ c.walk,
      ∃ k ∈ r.collections.toList, ∃ e : Entity, e.Inside k.members ∧ e.HasType r o.type := by
    refine List.foldlRecOn (motive := fun t : Typing => ∀ c ∈ t.collections, ∀ o ∈ c.walk,
      ∃ k ∈ r.collections.toList, ∃ e : Entity, e.Inside k.members ∧ e.HasType r o.type) _ _
      (fun c member => by cases member) ?_
    intro t origin k emitted
    rcases addCollection_cases r t k with ⟨ds, u, typed, step⟩ | ⟨m, step⟩
    · rw [step]
      intro d member
      rcases List.mem_append.mp member with old | new
      · exact origin d old
      · obtain rfl := List.mem_singleton.mp new
        exact fun o here =>
          ⟨k, (List.mem_filter.mp emitted).1, typeMembers_origin typed _ o here⟩
    · rw [step]
      exact origin
  intro o member
  rw [walk, walkAll, collections_ofRegistry, types_ofRegistry] at member
  rcases List.mem_append.mp member with inside | outside
  · obtain ⟨c, defined, here⟩ := List.mem_flatMap.mp inside
    exact Or.inl (collections c defined o here)
  · obtain ⟨d, listed, rfl⟩ := List.mem_map.mp outside
    obtain ⟨e, canonical, found⟩ := List.mem_filterMap.mp listed
    exact Or.inr ⟨rfl, e, List.mem_mergeSort.mp canonical, found⟩

theorem walk_inferred (r : Registry) : ∀ o ∈ (ofRegistry r).walk, o.IsInferred r := by
  intro o member
  rcases walk_origin r o member with ⟨-, -, e, -, typed⟩ | ⟨-, e, -, found⟩
  · exact ⟨e, typed.ofEntity?_bare⟩
  · exact ⟨e, (Descriptor.bare_withMembers found o.type.members).symm ▸ found⟩

end Typing

end PrintRegistry
