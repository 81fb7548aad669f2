import PrintRegistry.Proofs.Registry
import PrintRegistry.Typing

/-!
What typing makes of a registry. A descriptor repeats the name and the members
of its entity. An emitted collection is defined with the types of all its
members or reported, and so is an attribute.
-/

namespace PrintRegistry

namespace Descriptor

/-- The descriptor without the types of members. -/
def bare (d : Descriptor) : Descriptor :=
  { d with members := [] }

theorem ofEntity?_eq_some_iff {r : Registry} {e : Entity} {d : Descriptor} :
    ofEntity? r e = some d ↔ ∃ i, Inference.ofEntity? r e = some i ∧ ofInference e i = d := by
  simp [ofEntity?]

theorem name_ofEntity? {r : Registry} {e : Entity} {d : Descriptor}
    (h : ofEntity? r e = some d) : d.name = e.name := by
  obtain ⟨i, -, rfl⟩ := ofEntity?_eq_some_iff.mp h
  rfl

theorem members_ofEntity? {r : Registry} {e : Entity} {d : Descriptor}
    (h : ofEntity? r e = some d) : d.members = [] := by
  obtain ⟨i, -, rfl⟩ := ofEntity?_eq_some_iff.mp h
  rfl

/-- Giving the descriptor of an entity any members and taking them away again
changes nothing. -/
theorem bare_withMembers {r : Registry} {e : Entity} {d : Descriptor}
    (h : ofEntity? r e = some d) (ds : List Descriptor) :
    ({ d with members := ds } : Descriptor).bare = d := by
  have none := members_ofEntity? h
  cases d
  simp_all [bare]

end Descriptor

/-- The type of an entity is its descriptor with the types of its members. The
entity itself is recorded before its members are. -/
theorem Entity.type_ok {r : Registry} {site : Site} {u u' : Usages} {e : Entity} {d : Descriptor}
    (h : e.type r site u = .ok (d, u')) :
    ∃ base ds, Descriptor.ofEntity? r e = some base ∧
      typeMembers r (site.child e.name) (u.record site base) e.members = .ok (ds, u') ∧
      d = { base with members := ds } := by
  cases e
  rw [Entity.type] at h
  split at h
  · cases h
  · rename_i base found
    split at h
    · cases h
    · rename_i ds after typed
      cases h
      exact ⟨base, ds, found, typed, rfl⟩

theorem typeMembers_cons_ok {r : Registry} {site : Site} {u u' : Usages} {m : Entity}
    {ms : List Entity} {ds : List Descriptor} (h : typeMembers r site u (m :: ms) = .ok (ds, u')) :
    ∃ d ds' between, m.type r site u = .ok (d, between) ∧
      typeMembers r site between ms = .ok (ds', u') ∧ ds = d :: ds' := by
  rw [typeMembers] at h
  split at h
  · cases h
  · rename_i d between first
    split at h
    · cases h
    · rename_i ds' after rest
      cases h
      exact ⟨d, ds', between, first, rest, rfl⟩

/-- Every member of a typed list has its descriptor in the result, with the
types of its own members. -/
theorem typeMembers_covers {r : Registry} {site : Site} {u u' : Usages} {ms : List Entity}
    {ds : List Descriptor} (h : typeMembers r site u ms = .ok (ds, u')) :
    ∀ m ∈ ms, ∃ d ∈ ds, d.name = m.name ∧
      ∃ inner before after, typeMembers r inner before m.members = .ok (d.members, after) := by
  induction ms generalizing u ds with
  | nil => intro m member; cases member
  | cons m ms ih =>
    obtain ⟨d, ds', between, first, rest, rfl⟩ := typeMembers_cons_ok h
    intro x member
    rcases List.mem_cons.mp member with same | later
    · subst same
      obtain ⟨base, types, found, typed, rfl⟩ := Entity.type_ok first
      have named : base.name = x.name := Descriptor.name_ofEntity? found
      exact ⟨_, List.mem_cons_self, named, _, _, _, typed⟩
    · obtain ⟨d', present, described⟩ := ih rest x later
      exact ⟨d', List.mem_cons_of_mem d present, described⟩

namespace Typing

/-- A collection is added with the types of all its members, or a member
without a type is reported and nothing else changes. -/
theorem addCollection_cases (r : Registry) (t : Typing) (c : Entity) :
    (∃ ds u, typeMembers r (Site.top.child c.name) t.usages c.members = .ok (ds, u) ∧
      addCollection r t c =
        { t with collections := t.collections ++ [⟨c.name, c.specs, ds⟩], usages := u }) ∨
    (∃ m, addCollection r t c =
      { t with findings := t.findings ++ [.untypedMember c.name m] }) := by
  cases typed : typeMembers r (Site.top.child c.name) t.usages c.members with
  | ok result => exact Or.inl ⟨result.1, result.2, rfl, by simp [addCollection, typed]⟩
  | error m => exact Or.inr ⟨m, by simp [addCollection, typed]⟩

theorem addAttribute_cases (r : Registry) (t : Typing) (e : Entity) :
    (∃ d, Descriptor.ofEntity? r e = some d ∧
      addAttribute r t e =
        { t with types := t.types ++ [d], usages := t.usages.record .top d }) ∨
    (Descriptor.ofEntity? r e = none ∧
      addAttribute r t e = { t with findings := t.findings ++ [.untypedAttribute e] }) := by
  cases found : Descriptor.ofEntity? r e with
  | some d => exact Or.inl ⟨d, rfl, by simp [addAttribute, found]⟩
  | none => exact Or.inr ⟨rfl, by simp [addAttribute, found]⟩

def ofCollections (r : Registry) : Typing :=
  (r.collections.toList.filter Entity.emitted).foldl (addCollection r) {}

/-- A property of the empty typing that every added collection keeps holds when
all collections have been added. -/
theorem ofCollections_induction {motive : Typing → Prop} (r : Registry) (start : motive {})
    (step : ∀ t, motive t → ∀ c, motive (addCollection r t c)) : motive (ofCollections r) :=
  List.foldlRecOn (motive := motive) _ _ start fun t kept c _ => step t kept c

/-- A property that holds when all collections have been added, and that every
added attribute keeps, holds in the end. -/
theorem ofRegistry_induction {motive : Typing → Prop} (r : Registry)
    (start : motive (ofCollections r))
    (step : ∀ t, motive t → ∀ e, motive (addAttribute r t e)) : motive (ofRegistry r) :=
  List.foldlRecOn (motive := motive) _ _ start fun t kept e _ => step t kept e

/-- A collection is defined, with the types of all its members. -/
def Defines (r : Registry) (c : Entity) (t : Typing) : Prop :=
  ∃ d ∈ t.collections, d.name = c.name ∧
    ∃ u u', typeMembers r (Site.top.child c.name) u c.members = .ok (d.members, u')

/-- Unless something is reported, every emitted collection is defined. -/
theorem ofCollections_defines {r : Registry} (quiet : (ofCollections r).findings = []) {c : Entity}
    (member : c ∈ r.collections.toList) (emitted : c.emitted = true) :
    Defines r c (ofCollections r) := by
  have settle : ∀ t : Typing, True → ∀ c ∈ r.collections.toList.filter Entity.emitted,
      (addCollection r t c).findings = [] → Defines r c (addCollection r t c) := by
    intro t _ c _ quiet
    rcases addCollection_cases r t c with ⟨ds, u, typed, step⟩ | ⟨m, step⟩
    · rw [step]
      exact ⟨_, List.mem_append_right _ List.mem_cons_self, rfl, _, _, typed⟩
    · simp [step] at quiet
  have stay : ∀ t : Typing, True → ∀ c, (t.findings = [] → Defines r c t) →
      ∀ other ∈ r.collections.toList.filter Entity.emitted,
        (addCollection r t other).findings = [] → Defines r c (addCollection r t other) := by
    intro t _ c defined other _ quiet
    rcases addCollection_cases r t other with ⟨ds, u, -, step⟩ | ⟨m, step⟩
    · rw [step] at quiet ⊢
      obtain ⟨d, present, described⟩ := defined quiet
      exact ⟨d, List.mem_append_left _ present, described⟩
    · simp [step] at quiet
  have all := foldl_settles (motive := fun c t => t.findings = [] → Defines r c t)
    (fun _ => True) (fun _ _ _ _ => trivial) settle stay (b := {}) trivial
  exact all c (List.mem_filter.mpr ⟨member, emitted⟩) quiet

/-- Adding attributes adds the descriptors of those that have one, and a finding
for each of the others. -/
theorem foldl_addAttribute (r : Registry) (es : List Entity) (t : Typing) :
    (es.foldl (addAttribute r) t).collections = t.collections ∧
      (es.foldl (addAttribute r) t).types = t.types ++ es.filterMap (Descriptor.ofEntity? r) ∧
      (es.foldl (addAttribute r) t).findings = t.findings ++
        (es.filter fun e => (Descriptor.ofEntity? r e).isNone).map .untypedAttribute := by
  induction es generalizing t with
  | nil => simp
  | cons e es ih =>
    obtain ⟨collections, types, findings⟩ := ih (addAttribute r t e)
    rw [List.foldl_cons, collections, types, findings]
    rcases addAttribute_cases r t e with ⟨d, found, step⟩ | ⟨none, step⟩
    · simp [step, found]
    · simp [step, none]

theorem collections_ofRegistry (r : Registry) :
    (ofRegistry r).collections = (ofCollections r).collections :=
  (foldl_addAttribute r _ _).1

theorem types_ofRegistry (r : Registry) :
    (ofRegistry r).types = (attributesInOrder r).filterMap (Descriptor.ofEntity? r) := by
  have none : (ofCollections r).types = [] := by
    refine ofCollections_induction (motive := fun t => t.types = []) r rfl fun t none c => ?_
    rcases addCollection_cases r t c with ⟨ds, u, -, step⟩ | ⟨m, step⟩ <;> rw [step, none]
  have types := (foldl_addAttribute r (attributesInOrder r) (ofCollections r)).2.1
  rwa [none, List.nil_append] at types

theorem findings_ofRegistry (r : Registry) :
    (ofRegistry r).findings = (ofCollections r).findings ++
      ((attributesInOrder r).filter fun e => (Descriptor.ofEntity? r e).isNone).map
        .untypedAttribute :=
  (foldl_addAttribute r _ _).2.2

end Typing

end PrintRegistry
