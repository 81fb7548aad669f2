import PrintRegistry.Proofs.Agreement
import PrintRegistry.Proofs.Merging

/-!
No member is lost in merging. A member stays where it is, or moves along the aliases of
its collection, any number of times, and may be dropped on the way for one that is
declared the same. Either it is found again in the end, or it is reported as declared
differently somewhere. Where an alias leads nowhere the members stay, and this is
reported once; and what no merge concerns is as it was.
-/

namespace PrintRegistry

theorem AliasMerge.mem_findings_moveMembers {collection : String} {members incoming : List Entity}
    {f : Finding} (h : f ∈ (moveMembers collection members incoming).2) :
    ∃ kept other, f = .memberConflict collection kept other := by
  revert f
  refine List.foldlRecOn (motive := fun moved : List Entity × List Finding => ∀ {f}, f ∈ moved.2 →
    ∃ kept other, f = .memberConflict collection kept other) _ _ (fun none => by cases none) ?_
  intro moved before m _ f reported
  unfold moveMember at reported
  split at reported
  · split at reported
    · exact before reported
    · rcases List.mem_append.mp reported with old | new
      · exact before old
      · exact ⟨_, _, List.mem_singleton.mp new⟩
  · exact before reported

namespace Registry

variable {r : Registry} {ms : List AliasMerge} {m : AliasMerge} {p : String × String} {e : Entity}

/-- The members and values of all attributes are known by name, at every depth. -/
def Keyed (r : Registry) : Prop :=
  ∀ family name e, r.attribute? family name = some e → e.Keyed

/-- An attribute with members hands them on: its alias leads to another attribute, of
another name. -/
def Hands (r : Registry) (p q : String × String) : Prop :=
  ∃ e home, r.attribute? p.1 p.2 = some e ∧ e.members ≠ [] ∧
    e.reference = some (.byAlias q.2 home) ∧ q.2 ≠ p.2 ∧ q.1 = home.getD p.1

theorem hands_of_mem_aliasMerges (h : m ∈ r.aliasMerges) : r.Hands m.source m.referent :=
  mem_aliasMerges_iff.mp h

/-- A member is found under its name in an attribute that hops lead to, declared the
same. -/
def Finds (hop : String × String → String × String → Prop) (start : String × String)
    (member : Entity) (r : Registry) : Prop :=
  ∃ p, Relation.ReflTransGen hop start p ∧ ∃ e kept, r.attribute? p.1 p.2 = some e ∧
    Named.find? e.members member.name = some kept ∧ kept.sameDeclaration member = true

/-- A member of some name is declared in two ways. -/
def ReportsMember (name : String) (findings : List Finding) : Prop :=
  ∃ collection kept other, .memberConflict collection kept other ∈ findings ∧ other.name = name

/-- The merge takes a member where its alias leads, unless it stays or is reported. -/
theorem finds_mergeAlias {hop : String × String → String × String → Prop}
    {start : String × String} {member : Entity} (along : hop m.source m.referent)
    (h : r.Finds hop start member) :
    ∃ new, (r.mergeAlias m).findings = r.findings ++ new ∧
      ((r.mergeAlias m).Finds hop start member ∨ ReportsMember member.name new) := by
  obtain ⟨p, reached, e, kept, found, among, same⟩ := h
  rcases r.mergeAlias_cases m with
    ⟨-, unmerged⟩ | ⟨-, unmerged⟩ | ⟨target, source, moved, known, here, rfl, findings, after⟩
  · refine ⟨_, by rw [unmerged]; rfl, Or.inl ⟨p, reached, e, kept, ?_, among, same⟩⟩
    rw [unmerged]
    exact found
  · refine ⟨[], by rw [unmerged, List.append_nil], Or.inl ⟨p, reached, e, kept, ?_, among, same⟩⟩
    rw [unmerged]
    exact found
  · refine ⟨_, findings, ?_⟩
    by_cases isTarget : p.1 = m.targetFamily ∧ p.2 = m.target
    · -- What the target has is kept.
      obtain rfl : target = e := by
        rw [isTarget.1, isTarget.2, known] at found
        exact Option.some.inj found
      refine Or.inl ⟨p, reached, _, kept, (after p.1 p.2).trans (if_pos isTarget), ?_, same⟩
      rw [AliasMerge.find?_moveMembers, among, Option.some_or]
    · by_cases isSource : p.1 = m.family ∧ p.2 = m.name
      · obtain rfl : source = e := by
          rw [isSource.1, isSource.2, here] at found
          exact Option.some.inj found
        have itself : p = m.source := Prod.ext isSource.1 isSource.2
        obtain ⟨listed, named⟩ := Named.mem_of_find? among
        have named : kept.name = member.name := named
        rcases AliasMerge.settled_or_reported_moveMembers m.target target.members source.members
            kept listed with ⟨kept', found', same'⟩ | ⟨other, reported⟩
        · refine Or.inl ⟨m.referent, reached.tail (itself ▸ along), _, kept',
            (after _ _).trans (if_pos ⟨rfl, rfl⟩), named ▸ found', ?_⟩
          rcases same' with rfl | same'
          · exact same
          · exact Entity.sameDeclaration_trans same' same
        · exact Or.inr ⟨m.target, other, kept, reported, named⟩
      · refine Or.inl ⟨p, reached, e, kept, ?_, among, same⟩
        rw [after, if_neg isTarget, if_neg isSource, found]

theorem finds_merges {hop : String × String → String × String → Prop}
    {start : String × String} {member : Entity} (along : ∀ m ∈ ms, hop m.source m.referent)
    (h : r.Finds hop start member) :
    ∃ new, (ms.foldl mergeAlias r).findings = r.findings ++ new ∧
      ((ms.foldl mergeAlias r).Finds hop start member ∨ ReportsMember member.name new) := by
  induction ms using List.reverseRecOn with
  | nil => exact ⟨[], by simp, Or.inl h⟩
  | append_singleton ms last ih =>
    obtain ⟨new, findings, found⟩ := ih fun m listed => along m (List.mem_append_left _ listed)
    rw [List.foldl_append, List.foldl_cons, List.foldl_nil]
    rcases found with found | ⟨collection, kept, other, reported, named⟩
    · obtain ⟨newer, findings', found'⟩ := finds_mergeAlias (along last (by simp)) found
      refine ⟨new ++ newer, by rw [findings', findings, List.append_assoc], ?_⟩
      rcases found' with found' | ⟨collection, kept, other, reported, named⟩
      · exact Or.inl found'
      · exact Or.inr ⟨collection, kept, other, List.mem_append_right _ reported, named⟩
    · obtain ⟨newer, findings'⟩ := (continues_mergeAlias (ms.foldl mergeAlias r) last).findings
      refine ⟨new ++ newer, by rw [← findings', findings, List.append_assoc], Or.inr ?_⟩
      exact ⟨collection, kept, other, List.mem_append_left _ reported, named⟩

/-- What is reported of a merge whose alias leads nowhere. -/
def missingReferent? (r : Registry) (m : AliasMerge) : Option Finding :=
  if (r.attribute? m.targetFamily m.target).isSome then none
  else some (.missingAlias m.name m.target m.targetFamily)

theorem unresolved_mergeAlias (r : Registry) (m : AliasMerge) :
    ∃ new, (r.mergeAlias m).findings = r.findings ++ new ∧
      new.filter (·.kind == .unresolved) = (r.missingReferent? m).toList := by
  unfold mergeAlias missingReferent?
  cases r.attribute? m.targetFamily m.target with
  | none => exact ⟨_, rfl, rfl⟩
  | some target =>
    cases r.attribute? m.family m.name with
    | none => exact ⟨[], by simp, rfl⟩
    | some source =>
      refine ⟨_, rfl, List.filter_eq_nil_iff.mpr fun f reported => ?_⟩
      obtain ⟨kept, other, rfl⟩ := AliasMerge.mem_findings_moveMembers reported
      simp [Finding.kind]

theorem unresolved_merges (ms : List AliasMerge) (r : Registry) :
    ∃ new, (ms.foldl mergeAlias r).findings = r.findings ++ new ∧
      new.filter (·.kind == .unresolved) = ms.filterMap r.missingReferent? := by
  induction ms using List.reverseRecOn with
  | nil => exact ⟨[], by simp, rfl⟩
  | append_singleton ms last ih =>
    obtain ⟨new, findings, unresolved⟩ := ih
    obtain ⟨newer, findings', unresolved'⟩ := unresolved_mergeAlias (ms.foldl mergeAlias r) last
    have missing : (ms.foldl mergeAlias r).missingReferent? last = r.missingReferent? last := by
      rw [missingReferent?, missingReferent?, declared_merges]
    refine ⟨new ++ newer, ?_, ?_⟩
    · rw [List.foldl_append, List.foldl_cons, List.foldl_nil, findings', findings,
        List.append_assoc]
    · rw [List.filter_append, unresolved, unresolved', missing, List.filterMap_append]
      cases lost : r.missingReferent? last <;> simp [lost]

/-- Merges change nothing but their sources and referents. -/
theorem attribute?_merges (other : ∀ m ∈ ms, m.source ≠ p ∧ m.referent ≠ p) :
    (ms.foldl mergeAlias r).attribute? p.1 p.2 = r.attribute? p.1 p.2 := by
  refine List.foldlRecOn (motive := fun r' : Registry =>
    r'.attribute? p.1 p.2 = r.attribute? p.1 p.2) _ _ rfl ?_
  intro r' before m listed
  obtain ⟨takes, brings⟩ := other m listed
  rcases r'.mergeAlias_cases m with
    ⟨-, same⟩ | ⟨-, same⟩ | ⟨target, source, moved, -, -, -, -, after⟩
  · rw [same]
    exact before
  · rw [same]
    exact before
  · rw [after, if_neg, if_neg, before]
    · rintro ⟨family, name⟩
      exact takes (Prod.ext family.symm name.symm)
    · rintro ⟨family, name⟩
      exact brings (Prod.ext family.symm name.symm)

/-- What is reported of an attribute with members: its alias of another name leads
nowhere. -/
def strayAlias? (r : Registry) (family : String) (e : Entity) : Option Finding :=
  match e.reference with
  | some (.byAlias target home) =>
    if e.isCollection && target != e.name && (r.attribute? (home.getD family) target).isNone then
      some (.missingAlias e.name target (home.getD family))
    else none
  | _ => none

theorem strayAlias?_eq (r : Registry) (family : String) (e : Entity) :
    r.strayAlias? family e = (AliasMerge.ofAttribute? family e).bind r.missingReferent? := by
  unfold strayAlias? AliasMerge.ofAttribute?
  rcases e.reference with _ | ⟨⟨⟩ | ⟨⟩ | ⟨⟩ | ⟨target, home⟩⟩
  · rfl
  · rfl
  · rfl
  · rfl
  · dsimp only
    by_cases calls : (e.isCollection && target != e.name) = true
    · rw [if_pos calls, Option.bind_some, missingReferent?, calls, Bool.true_and]
      cases r.attribute? (home.getD family) target <;> rfl
    · rw [if_neg calls, Option.bind_none, (Bool.not_eq_true _).mp calls]
      rfl

/-- No member is lost silently in merging. Every member of an attribute is found
afterwards under its name, declared the same, in this attribute or in one that aliases
lead to from there; or else a member of that name is reported to be declared in two ways.
An attribute whose alias leads nowhere keeps its members, in their places. If it has some,
and the alias is of another name, this is reported, once for each such attribute in their
order, and nothing else is reported as unresolved. An attribute that no merge takes
members from or brings any is as it was. -/
theorem mergeAliases_conserves (keyed : r.Keyed) :
    ∃ new, r.mergeAliases.findings = r.findings ++ new ∧
      (∀ family name e, r.attribute? family name = some e → ∀ member ∈ e.members,
        r.mergeAliases.Finds r.Hands (family, name) member ∨ ReportsMember member.name new) ∧
      (∀ family name e target home, r.attribute? family name = some e →
        e.reference = some (.byAlias target home) → r.attribute? (home.getD family) target = none →
          ∃ e', r.mergeAliases.attribute? family name = some e' ∧ e.members <+: e'.members) ∧
      new.filter (·.kind == .unresolved) =
        r.attributes.filterMap (fun (family, e) => r.strayAlias? family e) ∧
      ∀ p, (∀ m ∈ r.aliasMerges, m.source ≠ p ∧ m.referent ≠ p) →
        r.mergeAliases.attribute? p.1 p.2 = r.attribute? p.1 p.2 := by
  obtain ⟨new, findings, unresolved⟩ := unresolved_merges r.aliasMerges r
  refine ⟨new, findings, ?_, ?_, ?_, fun p other => attribute?_merges other⟩
  · intro family name e found member listed
    have start : r.Finds r.Hands (family, name) member :=
      ⟨_, Relation.ReflTransGen.refl, e, member, found,
        Named.find?_of_mem (keyed family name e found).names listed,
        Entity.sameDeclaration_self ((keyed family name e found).members listed)⟩
    obtain ⟨new', findings', outcome⟩ :=
      finds_merges (fun m called => hands_of_mem_aliasMerges called) start
    obtain rfl : new = new' := List.append_cancel_left (findings.symm.trans findings')
    exact outcome
  · intro family name e target home found refers missing
    apply merges_keep (p := (family, name)) found
    intro m called takes
    obtain ⟨targetFamily, same⟩ := referent_of_mem_aliasMerges called takes found refers
    rw [targetFamily, same]
    exact missing
  · rw [unresolved, aliasMerges, List.filterMap_filterMap]
    apply List.filterMap_congr
    rintro ⟨family, e⟩ -
    exact (r.strayAlias?_eq family e).symm

theorem keyed_sheetCollection (name member : String) (shared : Option String) :
    (sheetCollection name member shared).Keyed := by
  refine .intro trivial (List.nodup_singleton _) fun m listed => ?_
  obtain rfl := List.mem_singleton.mp listed
  exact .intro trivial List.nodup_nil fun _ none => by cases none

/-- The member of `insertSheet` is taken to `coverBack`, and from there to `coverFront`. -/
theorem mergeAliases_conserves_of_sheets :
    let r := ofTemplate [insertSheet, coverBack, coverFront]
    r.Keyed ∧ ∀ member ∈ insertSheet.members,
      r.mergeAliases.Finds r.Hands ("Job Template", "insert-sheet") member := by
  intro r
  have attributes : r.attributes = [("Job Template", insertSheet), ("Job Template", coverBack),
      ("Job Template", coverFront)] := by rfl
  have keyed : r.Keyed := by
    intro family name e found
    have listed := mem_attributes_of_attribute? found
    rw [attributes] at listed
    simp only [List.mem_cons, Prod.mk.injEq, List.not_mem_nil, or_false] at listed
    rcases listed with ⟨-, rfl⟩ | ⟨-, rfl⟩ | ⟨-, rfl⟩ <;> exact keyed_sheetCollection ..
  refine ⟨keyed, fun member listed => ?_⟩
  obtain ⟨new, findings, found, -⟩ := mergeAliases_conserves keyed
  have silent : r.mergeAliases.findings = [] := by rfl
  rcases found "Job Template" "insert-sheet" insertSheet rfl member listed with
    found | ⟨_, _, _, reported, -⟩
  · exact found
  · rw [silent] at findings
    rw [(List.append_eq_nil_iff.mp findings.symm).2] at reported
    cases reported

end Registry

end PrintRegistry
