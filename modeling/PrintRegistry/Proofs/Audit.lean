import PrintRegistry.Proofs.Assembly
import PrintRegistry.Proofs.Walk

/-!
What the audit covers. Every attribute, and every entity inside one, that has the
grammar of a collection but no members is looked at, unless the collection it
takes its members from is not modelled. If nothing is reported, that collection
is registered and emitted; if it is not, this is reported once, however many
entities point at it. Attributes and members that list members of their own
are passed over, whatever they are an alias of.
-/

namespace PrintRegistry

namespace Named

variable {α : Type} [Named α]

theorem names_putNew (xs : List α) (a : α) :
    names (putNew xs a) = if nameOf a ∈ names xs then names xs else names xs ++ [nameOf a] := by
  simp only [putNew, has_iff]
  split
  · rfl
  · simp [names]

theorem names_putNew_eq (xs : List α) (a : α) :
    names (putNew xs a) = put (names xs) (nameOf a) := by
  rw [names_putNew, put_string]

/-- Of several entries of one name the first is put in, and names stay in order of first
mention. -/
theorem names_foldl_putNew (as : List α) : names (as.foldl putNew []) = (names as).eraseDups := by
  induction as using List.reverseRecOn with
  | nil => rfl
  | append_singleton as a ih =>
    rw [List.foldl_append, List.foldl_cons, List.foldl_nil, names_putNew_eq, ih, put_eraseDups]
    simp [names]

theorem nodup_eraseDups (xs : List String) : xs.eraseDups.Nodup := by
  have self (ys : List String) : names ys = ys := List.map_id ys
  induction xs using List.reverseRecOn with
  | nil => exact List.nodup_nil
  | append_singleton xs s ih =>
    rw [← put_eraseDups, ← self (put _ _)]
    exact nodup_names_put ((self _).symm ▸ ih) s

theorem mem_of_mem_foldl_putNew {as : List α} {a : α} (h : a ∈ as.foldl putNew []) : a ∈ as := by
  revert a
  refine List.foldlRecOn (motive := fun xs => ∀ {a : α}, a ∈ xs → a ∈ as) _ _
    (fun none => by cases none) ?_
  intro xs earlier b listed a member
  unfold putNew at member
  split at member
  · exact earlier member
  · rcases List.mem_append.mp member with old | new
    · exact earlier old
    · exact List.mem_singleton.mp new ▸ listed

end Named

namespace Entity

theorem Inside.of_subset {e : Entity} {ms ns : List Entity} (inside : e.Inside ms)
    (sub : ms ⊆ ns) : e.Inside ns := by
  cases inside with
  | here member => exact .here (sub member)
  | deeper member inner => exact .deeper (sub member) inner

theorem pointers_eq (e : Entity) : e.pointers = e.asPointer?.toList ++ pointersIn e.members := by
  cases e
  rw [pointers]

theorem pointersIn_eq (ms : List Entity) : pointersIn ms = ms.flatMap pointers := by
  induction ms with
  | nil => rfl
  | cons m ms ih => rw [pointersIn, ih, List.flatMap_cons]

theorem asPointer?_eq_some_iff {e : Entity} {p : CollectionPointer} :
    e.asPointer? = some p ↔ (e.grammar.isCollection = true ∧ e.members = [] ∧
      e.collectionName ∉ untypedCollections) ∧ p = ⟨e.collectionName, e⟩ := by
  simp only [asPointer?, isCollection, Bool.not_not, Option.ite_none_right_eq_some,
    Bool.and_eq_true, List.isEmpty_iff, Bool.not_eq_true', List.contains_eq_mem,
    decide_eq_false_iff_not, and_assoc, Option.some.injEq, eq_comm (b := p)]

theorem asPointer?_of_memberless {e : Entity} (collection : e.grammar.isCollection = true)
    (modelled : e.collectionName ∉ untypedCollections) (none : e.members = []) :
    e.asPointer? = some ⟨e.collectionName, e⟩ :=
  asPointer?_eq_some_iff.mpr ⟨⟨collection, none, modelled⟩, rfl⟩

theorem Inside.mem_pointersIn {e : Entity} {ms : List Entity} (inside : e.Inside ms)
    {p : CollectionPointer} (points : e.asPointer? = some p) : p ∈ pointersIn ms := by
  induction inside with
  | here member =>
    refine pointersIn_eq _ ▸ List.mem_flatMap.mpr ⟨e, member, ?_⟩
    rw [pointers_eq, points]
    exact List.mem_cons_self
  | deeper member _ ih =>
    refine pointersIn_eq _ ▸ List.mem_flatMap.mpr ⟨_, member, ?_⟩
    rw [pointers_eq]
    exact List.mem_append_right _ ih

theorem inside_of_mem_pointers {e : Entity} {p : CollectionPointer} (h : p ∈ e.pointers) :
    ∃ x : Entity, x.Inside [e] ∧ x.asPointer? = some p := by
  induction e using memberInduction with
  | step e ih =>
    rw [pointers_eq, List.mem_append] at h
    rcases h with own | inner
    · exact ⟨e, .here List.mem_cons_self, Option.mem_toList.mp own⟩
    · obtain ⟨m, member, points⟩ := List.mem_flatMap.mp (pointersIn_eq e.members ▸ inner)
      obtain ⟨x, inside, found⟩ := ih m member points
      refine ⟨x, .deeper List.mem_cons_self (inside.of_subset ?_), found⟩
      exact List.cons_subset.mpr ⟨member, List.nil_subset _⟩

/-- The walk over entities and their members comes upon all pointers inside them, and upon
no others. -/
theorem mem_pointersIn_iff {ms : List Entity} {p : CollectionPointer} :
    p ∈ pointersIn ms ↔ ∃ e : Entity, e.Inside ms ∧ e.asPointer? = some p := by
  constructor
  · intro points
    obtain ⟨m, member, inner⟩ := List.mem_flatMap.mp (pointersIn_eq ms ▸ points)
    obtain ⟨e, inside, found⟩ := inside_of_mem_pointers inner
    exact ⟨e, inside.of_subset (List.cons_subset.mpr ⟨member, List.nil_subset _⟩), found⟩
  · rintro ⟨e, inside, found⟩
    exact inside.mem_pointersIn found

end Entity

namespace Registry

variable {r : Registry} {t : String} {p : CollectionPointer} {f : Finding}

theorem names_pointers (r : Registry) :
    Named.names r.pointers = (Named.names (Entity.pointersIn r.allAttributes)).eraseDups := by
  have walk : Entity.pointersIn r.allAttributes = r.attributes.flatMap fun a => a.2.pointers := by
    rw [allAttributes, Entity.pointersIn_eq, List.flatMap_map]
  rw [walk]
  exact Named.names_foldl_putNew _

theorem mem_pointers (h : p ∈ r.pointers) : p ∈ Entity.pointersIn r.allAttributes := by
  rw [allAttributes, Entity.pointersIn_eq, List.flatMap_map]
  exact Named.mem_of_mem_foldl_putNew h

/-- If the audit finds nothing, what an attribute or an entity inside it points at
is registered and emitted. A collection is audited once, but which of its pointers
comes first makes no difference to whether there is a finding. -/
theorem audit_covers {r : Registry} (quiet : r.audit.findings = []) {family : String}
    {a : Entity} (listed : (family, a) ∈ r.attributes) {p : CollectionPointer}
    (points : p ∈ a.pointers) :
    ∃ k ∈ r.collections.toList, k.name = p.target ∧ k.emitted = true := by
  have silent : ∀ q ∈ r.pointers, r.pointerFinding? q = none := by
    rw [audit, List.append_eq_nil_iff, List.filterMap_eq_nil_iff] at quiet
    exact quiet.2
  have walked : p ∈ Entity.pointersIn r.allAttributes := by
    rw [Entity.pointersIn_eq]
    exact List.mem_flatMap.mpr ⟨a, List.mem_map_of_mem listed, points⟩
  have pointed : nameOf p ∈ Named.names r.pointers := by
    rw [names_pointers]
    exact List.mem_eraseDups.mpr (Named.mem_names walked)
  obtain ⟨q, audited, same⟩ := List.mem_map.mp pointed
  have found := silent q audited
  rw [pointerFinding?, show q.target = p.target from same] at found
  split at found
  · cases found
  · rename_i k registered
    obtain ⟨member, named⟩ := Table.mem_of_find? registered
    refine ⟨k, member, named, ?_⟩
    by_contra hidden
    simp [hidden] at found

/-- An entity, at any depth of the attribute tables, has the grammar of a collection but no
members, and takes them from the collection of the name. -/
structure PointsAt (r : Registry) (e : Entity) (t : String) : Prop where
  inside : e.Inside r.allAttributes
  collection : e.grammar.isCollection = true
  memberless : e.members = []
  target : e.collectionName = t

/-- No collection of the name is registered, or it is not emitted. -/
def Lacks (r : Registry) (t : String) : Prop :=
  ∀ c, r.collections.find? t = some c → c.emitted = false

theorem mem_names_pointers_iff :
    t ∈ Named.names r.pointers ↔ t ∉ untypedCollections ∧ ∃ e, r.PointsAt e t := by
  rw [names_pointers, List.mem_eraseDups, Named.names, List.mem_map]
  simp only [Entity.mem_pointersIn_iff, Entity.asPointer?_eq_some_iff]
  constructor
  · rintro ⟨_, ⟨e, inside, ⟨collection, none, modelled⟩, rfl⟩, rfl⟩
    exact ⟨modelled, e, inside, collection, none, rfl⟩
  · rintro ⟨modelled, e, inside, collection, none, rfl⟩
    exact ⟨_, ⟨e, inside, ⟨collection, none, modelled⟩, rfl⟩, rfl⟩

theorem pointsAt_of_mem_pointers (h : p ∈ r.pointers) : r.PointsAt p.pointer p.target := by
  obtain ⟨e, inside, found⟩ := Entity.mem_pointersIn_iff.mp (mem_pointers h)
  obtain ⟨⟨collection, none, -⟩, rfl⟩ := Entity.asPointer?_eq_some_iff.mp found
  exact ⟨inside, collection, none, rfl⟩

theorem pointerFinding?_eq_some_iff :
    r.pointerFinding? p = some f ↔ r.Lacks p.target ∧ f =
      if r.collections.has p.target then .collectionNotEmitted p.target p.pointer
      else .collectionMissing p.target p.pointer := by
  have known : r.collections.has p.target = (r.collections.find? p.target).isSome := rfl
  rw [pointerFinding?, Lacks, known]
  cases found : r.collections.find? p.target with
  | none => simp [eq_comm (b := f)]
  | some c => cases emitted : c.emitted <;> simp [emitted, eq_comm (b := f)]

/-- The audit reports each miss once, and nothing else. What it adds to the findings matches,
one by one, a list of distinct names: those that some entity points at, unless they are not
modelled, and that are not both registered and emitted. Each finding is an unresolved
reference, tells whether the collection is missing or only not emitted, and shows an entity
that points there. No table is changed. -/
theorem audit_reports_each_miss (r : Registry) :
    ∃ targets found, r.audit = { r with findings := r.findings ++ found } ∧ targets.Nodup ∧
      (∀ t, t ∈ targets ↔ t ∉ untypedCollections ∧ (∃ e, r.PointsAt e t) ∧ r.Lacks t) ∧
      List.Forall₂ (fun t f => f.kind = .unresolved ∧ ∃ e, r.PointsAt e t ∧
        f = if r.collections.has t then .collectionNotEmitted t e else .collectionMissing t e)
        targets found := by
  let missed := r.pointers.filter fun p => (r.pointerFinding? p).isSome
  have lacking : ∀ p, (r.pointerFinding? p).isSome = true ↔ r.Lacks p.target := by
    simp [Option.isSome_iff_exists, pointerFinding?_eq_some_iff]
  refine ⟨Named.names missed, r.pointers.filterMap r.pointerFinding?, rfl, ?_, fun t => ?_, ?_⟩
  · have distinct : (Named.names r.pointers).Nodup := names_pointers r ▸ Named.nodup_eraseDups _
    exact distinct.sublist (List.filter_sublist.map nameOf)
  · rw [← and_assoc, ← mem_names_pointers_iff, Named.names, Named.names, List.mem_map, List.mem_map]
    simp only [missed, List.mem_filter, lacking]
    constructor
    · rintro ⟨p, ⟨listed, lacks⟩, rfl⟩
      exact ⟨⟨p, listed, rfl⟩, lacks⟩
    · rintro ⟨⟨p, listed, rfl⟩, lacks⟩
      exact ⟨p, ⟨listed, lacks⟩, rfl⟩
  · refine List.forall₂_map_left_iff.mpr (forall₂_filterMap fun p listed f found => ?_)
    obtain ⟨-, rfl⟩ := pointerFinding?_eq_some_iff.mp found
    refine ⟨?_, p.pointer, pointsAt_of_mem_pointers listed, rfl⟩
    split <;> rfl

end Registry

end PrintRegistry
