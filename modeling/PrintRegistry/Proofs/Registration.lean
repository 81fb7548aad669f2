import PrintRegistry.Proofs.Assembly

/-!
Registered collections. As long as nothing is reported, every collection is
registered as an attribute defines it and counts as emitted, and an attribute
that comes later defines the same members.
-/

namespace PrintRegistry.Registry

/-- What registering an attribute does when it reports nothing: either a
collection of its name with the same members is there, or it is put in and
counts as emitted. -/
theorem registerAttribute_quiet {r : Registry} {family : String} {c : Entity}
    (quiet : (r.registerAttribute family c).findings = []) :
    (∃ kept, r.collections.find? c.name = some kept ∧ kept.sameMembers c = true ∧
      (r.registerAttribute family c).collections = r.collections) ∨
    (r.collections.find? c.name = none ∧
      (r.registerAttribute family c).collections = r.collections.put { c with emitted := true }) := by
  rw [registerAttribute, registerCollection] at quiet ⊢
  cases registered : r.collections.find? c.name with
  | some kept =>
    simp only [registered] at quiet ⊢
    by_cases same : kept.sameMembers c = true
    · exact Or.inl ⟨kept, rfl, same, by simp [same]⟩
    · simp [same, report] at quiet
  | none =>
    simp only [registered] at quiet ⊢
    cases bare : c.bareMember? with
    | some member => simp [bare, report] at quiet
    | none => exact Or.inr ⟨trivial, by simp [adjustAttribute]⟩

/-- The collections registered so far are attributes, marked as emitted. -/
private def RegisteredFrom (attributes : List (String × Entity)) (r : Registry) : Prop :=
  r.findings = [] →
    ∀ k ∈ r.collections.toList, ∃ family c, (family, c) ∈ attributes ∧ k = { c with emitted := true }

/-- A collection of the name of an attribute is registered, with its members or
the same ones. -/
private def Registers (attribution : String × Entity) (r : Registry) : Prop :=
  r.findings = [] → ∃ kept, r.collections.find? attribution.2.name = some kept ∧
    (kept.members = attribution.2.members ∨ kept.sameMembers attribution.2 = true)

private theorem registeredFrom_step {attributes : List (String × Entity)} {r : Registry}
    {family : String} {c : Entity} (h : RegisteredFrom attributes r)
    (member : (family, c) ∈ attributes) :
    RegisteredFrom attributes (r.registerAttribute family c) := by
  intro quiet k registered
  have before : r.findings = [] :=
    (continues_registerAttribute r family c).quiet quiet
  rcases registerAttribute_quiet quiet with ⟨kept, -, -, same⟩ | ⟨-, put⟩
  · exact h before k (same ▸ registered)
  · rw [put] at registered
    rcases Table.mem_put registered with new | old
    · exact ⟨family, c, member, new⟩
    · exact h before k old

private theorem registers_self (r : Registry) (family : String) (c : Entity) :
    Registers (family, c) (r.registerAttribute family c) := by
  intro quiet
  rcases registerAttribute_quiet quiet with ⟨kept, found, agrees, same⟩ | ⟨-, put⟩
  · exact ⟨kept, same ▸ found, Or.inr agrees⟩
  · refine ⟨{ c with emitted := true }, ?_, Or.inl rfl⟩
    rw [put, Table.find?_put]
    exact if_pos rfl

private theorem registers_step {r : Registry} {attribution : String × Entity}
    (h : Registers attribution r) (family : String) (c : Entity) :
    Registers attribution (r.registerAttribute family c) := by
  intro quiet
  have before : r.findings = [] :=
    (continues_registerAttribute r family c).quiet quiet
  obtain ⟨kept, found, members⟩ := h before
  rcases registerAttribute_quiet quiet with ⟨-, -, -, same⟩ | ⟨absent, put⟩
  · exact ⟨kept, same ▸ found, members⟩
  · -- The name put in is new, so it is not the one found before.
    have other : ¬ c.name = attribution.2.name := by
      intro same
      rw [same, found] at absent
      cases absent
    refine ⟨kept, ?_, members⟩
    rw [put, Table.find?_put]
    exact (if_neg other).trans found

/-- Unless something is reported, every registered collection is an attribute
with members, marked as emitted. -/
theorem registerCollections_from_attributes {r : Registry} (none : r.collections = .empty)
    (quiet : r.registerCollections.findings = []) :
    ∀ k ∈ r.registerCollections.collections.toList,
      ∃ family c, (family, c) ∈ r.attributes ∧ k = { c with emitted := true } := by
  have start : RegisteredFrom r.attributes r := by
    intro _ k registered
    rw [none] at registered
    cases registered
  exact List.foldlRecOn (motive := RegisteredFrom r.attributes) _ _ start
    (fun _ h _ member => registeredFrom_step h (List.mem_filter.mp member).1) quiet

/-- Unless something is reported, a collection is registered for every attribute
with members, and has these members or the same ones. -/
theorem registerCollections_registers {r : Registry}
    (quiet : r.registerCollections.findings = []) {family : String} {c : Entity}
    (member : (family, c) ∈ r.attributes) (collection : c.isCollection = true) :
    ∃ kept, r.registerCollections.collections.find? c.name = some kept ∧
      (kept.members = c.members ∨ kept.sameMembers c = true) :=
  foldl_settles (motive := Registers) (fun _ => True) (fun _ _ _ _ => trivial)
    (fun r _ a _ => registers_self r a.1 a.2) (fun _ _ _ h other _ => registers_step h other.1 other.2)
    trivial (family, c) (List.mem_filter.mpr ⟨member, collection⟩) quiet

end PrintRegistry.Registry
