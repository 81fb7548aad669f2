import PrintRegistry.Collection.Registration
import PrintRegistry.Proofs.Entity

/-!
First definitions win. Whatever collections are registered, in whatever order and however
often, the table holds the first definition of each name, and it is emitted if every
member at every depth has a grammar. A later definition is never registered; it is
reported if its members differ from those of the first one.
-/

namespace PrintRegistry

namespace Named

variable {α : Type} [Named α]

theorem find?_concat (xs : List α) (a : α) (name : String) : find? (xs ++ [a]) name =
    (find? xs name).or (if nameOf a = name then some a else none) := by
  rw [find?, List.find?_append]
  by_cases same : nameOf a = name <;> simp [find?, same]

end Named

namespace Entity

variable {e m : Entity} {ms : List Entity}

/-- Every member, at any depth, has a grammar. -/
def IsWhole (e : Entity) : Prop :=
  ∀ m : Entity, m.Inside e.members → m.grammar.isEmpty = false

theorem not_inside_nil : ¬ e.Inside [] := by
  intro inside
  cases inside with
  | here listed => cases listed
  | deeper listed _ => cases listed

theorem inside_cons_iff : e.Inside (m :: ms) ↔ e = m ∨ e.Inside m.members ∨ e.Inside ms := by
  constructor
  · intro inside
    cases inside with
    | here listed =>
      rcases List.mem_cons.mp listed with same | later
      · exact Or.inl same
      · exact Or.inr (Or.inr (.here later))
    | deeper listed inner =>
      rcases List.mem_cons.mp listed with rfl | later
      · exact Or.inr (Or.inl inner)
      · exact Or.inr (Or.inr (.deeper later inner))
  · rintro (rfl | inner | later)
    · exact .here List.mem_cons_self
    · exact .deeper List.mem_cons_self inner
    · cases later with
      | here listed => exact .here (List.mem_cons_of_mem _ listed)
      | deeper listed inner => exact .deeper (List.mem_cons_of_mem _ listed) inner

theorem bareMember?_eq (e : Entity) : e.bareMember? = bareIn? e.members := by
  cases e
  rw [bareMember?]

theorem bareMember?_eq_none_iff : e.bareMember? = none ↔ e.IsWhole := by
  induction e using memberInduction with
  | step e ih =>
    rw [bareMember?_eq, IsWhole]
    -- Over the members; what is inside each of them is known by the outer induction.
    generalize e.members = ms at ih
    induction ms with
    | nil => simp [bareIn?, not_inside_nil]
    | cons m ms ihms =>
      have inner := ih m List.mem_cons_self
      have rest := ihms fun x listed => ih x (List.mem_cons_of_mem m listed)
      rw [IsWhole] at inner
      simp only [bareIn?, inside_cons_iff, or_imp, forall_and, forall_eq]
      cases bare : m.grammar.isEmpty with
      | true => simp
      | false => simp [Option.or_eq_none_iff, inner, rest]

instance : Decidable e.IsWhole :=
  decidable_of_iff (e.bareMember? = none) bareMember?_eq_none_iff

/-- A collection as it is registered. -/
def registered (c : Entity) : Entity :=
  { c with emitted := decide c.IsWhole }

@[simp] theorem registered_sameMembers (c e : Entity) :
    c.registered.sameMembers e = c.sameMembers e := rfl

end Entity

namespace Registry

variable {r : Registry} {c : Entity} {cs : List Entity}

theorem registerCollection_known {kept : Entity}
    (known : r.collections.find? c.name = some kept) : r.registerCollection c =
      (if kept.sameMembers c then r else r.report (.membersConflict kept c), false) := by
  rw [registerCollection, known]

theorem collections_registerCollection_known {kept : Entity}
    (known : r.collections.find? c.name = some kept) :
    (r.registerCollection c).1.collections = r.collections := by
  rw [registerCollection_known known]
  split <;> rfl

theorem registerCollection_new (new : r.collections.find? c.name = none) :
    (r.registerCollection c).2 = decide c.IsWhole ∧
      (r.registerCollection c).1.collections = r.collections.put c.registered ∧
      ∃ found, (r.registerCollection c).1.findings = r.findings ++ found ∧
        found.map Finding.kind = if c.IsWhole then [] else [.emptyDefinition] := by
  rw [registerCollection, new]
  cases bare : c.bareMember? with
  | some member =>
    have lacks : ¬ c.IsWhole := by
      rw [← Entity.bareMember?_eq_none_iff, bare]
      exact Option.some_ne_none member
    simp [Entity.registered, lacks, report, Finding.kind]
  | none =>
    have whole : c.IsWhole := Entity.bareMember?_eq_none_iff.mp bare
    simp [Entity.registered, whole]

theorem find?_registerCollection (r : Registry) (c : Entity) (name : String) :
    (r.registerCollection c).1.collections.find? name =
      (r.collections.find? name).or (if c.name = name then some c.registered else none) := by
  cases known : r.collections.find? c.name with
  | some kept =>
    rw [collections_registerCollection_known known]
    by_cases same : c.name = name
    · rw [← same, known, Option.some_or]
    · rw [if_neg same, Option.or_none]
  | none =>
    rw [(registerCollection_new known).2.1, Table.find?_put]
    by_cases same : c.name = name
    · rw [← same, known, Option.none_or]
      rfl
    · rw [if_neg same, Option.or_none]
      exact if_neg same

/-- Registering an attribute marks it beside registering its collection. -/
theorem collections_registerAttribute (r : Registry) (family : String) (c : Entity) :
    (r.registerAttribute family c).collections = (r.registerCollection c).1.collections := by
  rw [registerAttribute]
  split <;> rename_i registered <;> exact (congrArg (·.1.collections) registered).symm

theorem names_registerCollection (r : Registry) (c : Entity) :
    (r.registerCollection c).1.collections.names = Named.put r.collections.names c.name := by
  cases known : r.collections.find? c.name with
  | some kept =>
    have listed : c.name ∈ r.collections.names := Named.find?_isSome_iff.mp ⟨kept, known⟩
    rw [collections_registerCollection_known known, Named.put_string, if_pos listed]
  | none =>
    rw [(registerCollection_new known).2.1]
    exact Named.names_put_eq r.collections.toList c.registered

theorem emitted_registerCollection (r : Registry) (c : Entity) :
    (r.registerCollection c).2 = decide (c.name ∉ r.collections.names ∧ c.IsWhole) := by
  cases known : r.collections.find? c.name with
  | some kept =>
    have listed : c.name ∈ r.collections.names := Named.find?_isSome_iff.mp ⟨kept, known⟩
    simp [registerCollection_known known, listed]
  | none =>
    have absent : c.name ∉ r.collections.names := Named.find?_eq_none_iff.mp known
    simp [(registerCollection_new known).1, absent]

/-- What is found when a collection is registered. -/
theorem kinds_registerCollection (r : Registry) (c : Entity) :
    ∃ found, (r.registerCollection c).1.findings = r.findings ++ found ∧
      found.map Finding.kind = match r.collections.find? c.name with
        | some kept => if kept.sameMembers c then [] else [.conflict]
        | none => if c.IsWhole then [] else [.emptyDefinition] := by
  cases known : r.collections.find? c.name with
  | some kept =>
    rw [registerCollection_known known]
    by_cases same : kept.sameMembers c = true
    · exact ⟨[], by simp [same], by simp [same]⟩
    · exact ⟨[.membersConflict kept c], by simp [same, report], by simp [same, Finding.kind]⟩
  | none => exact (registerCollection_new known).2.2

/-- Registers collections one after another, and says of each whether it has been emitted
now. -/
def registerAll (r : Registry) (cs : List Entity) : Registry × List Bool :=
  cs.foldl (fun (r, emitted) c =>
    ((r.registerCollection c).1, emitted ++ [(r.registerCollection c).2])) (r, [])

theorem registerAll_concat (r : Registry) (cs : List Entity) (c : Entity) :
    r.registerAll (cs ++ [c]) = (((r.registerAll cs).1.registerCollection c).1,
      (r.registerAll cs).2 ++ [((r.registerAll cs).1.registerCollection c).2]) := by
  rw [registerAll, List.foldl_append]
  rfl

/-- The definitions, each with those before it. -/
def withEarlier (cs : List Entity) : List (List Entity × Entity) :=
  cs.zipIdx.map fun (c, i) => (cs.take i, c)

theorem withEarlier_concat (cs : List Entity) (c : Entity) :
    withEarlier (cs ++ [c]) = withEarlier cs ++ [(cs, c)] := by
  have earlier : ∀ a ∈ cs.zipIdx, ((cs ++ [c]).take a.2, a.1) = (cs.take a.2, a.1) := by
    intro a listed
    have inside := List.snd_lt_of_mem_zipIdx listed
    rw [List.take_append_of_le_length (by omega)]
  rw [withEarlier, List.zipIdx_append, List.map_append, List.map_congr_left earlier]
  simp [withEarlier]

/-- The later definitions of each name, each with the first one. -/
def laterDefinitions (cs : List Entity) : List (Entity × Entity) :=
  (withEarlier cs).filterMap fun (earlier, c) => (Named.find? earlier c.name).map (·, c)

theorem laterDefinitions_concat (cs : List Entity) (c : Entity) :
    laterDefinitions (cs ++ [c]) =
      laterDefinitions cs ++ ((Named.find? cs c.name).map (·, c)).toList := by
  rw [laterDefinitions, withEarlier_concat, List.filterMap_append]
  cases found : Named.find? cs c.name <;> simp [laterDefinitions, found]

/-- The names whose first definition has a member without a grammar. -/
def namesLacking (cs : List Entity) : List String :=
  (Named.names cs).eraseDups.filter fun name =>
    (Named.find? cs name).any fun first => decide ¬ first.IsWhole

theorem namesLacking_concat (cs : List Entity) (c : Entity) :
    namesLacking (cs ++ [c]) = namesLacking cs ++
      (if c.name ∉ Named.names cs ∧ ¬ c.IsWhole then [c.name] else []) := by
  -- A later definition does not change what the first one of a listed name is.
  have earlier : ∀ name ∈ (Named.names cs).eraseDups,
      ((Named.find? (cs ++ [c]) name).any fun first => decide ¬ first.IsWhole) =
        (Named.find? cs name).any fun first => decide ¬ first.IsWhole := by
    intro name listed
    obtain ⟨first, found⟩ := Named.find?_isSome_iff.mpr (List.mem_eraseDups.mp listed)
    rw [Named.find?_concat, found, Option.some_or]
  have names : Named.names (cs ++ [c]) = Named.names cs ++ [c.name] := List.map_append
  rw [namesLacking, names, ← Named.put_eraseDups, Named.put_string]
  by_cases listed : c.name ∈ Named.names cs
  · rw [if_pos (List.mem_eraseDups.mpr listed), List.filter_congr earlier]
    simp [namesLacking, listed]
  · have absent : Named.find? cs c.name = none := Named.find?_eq_none_iff.mpr listed
    have last : Named.find? (cs ++ [c]) c.name = some c := by
      rw [Named.find?_concat, absent, Option.none_or]
      exact if_pos rfl
    rw [if_neg fun inside => listed (List.mem_eraseDups.mp inside), List.filter_append,
      List.filter_congr earlier]
    by_cases whole : c.IsWhole <;> simp [namesLacking, last, listed, whole]

section Runs

variable (none : r.collections = .empty)

include none

/-- The table has the first definition of each name. -/
theorem find?_registerAll (cs : List Entity) (name : String) :
    (r.registerAll cs).1.collections.find? name =
      (Named.find? cs name).map Entity.registered := by
  induction cs using List.reverseRecOn with
  | nil => exact congrArg (·.find? name) none
  | append_singleton cs c ih =>
    rw [registerAll_concat, find?_registerCollection, ih, Named.find?_concat, Option.map_or]
    by_cases same : c.name = name <;> simp [nameOf, same]

/-- The names of the table are in the order in which they first came. -/
theorem names_registerAll (cs : List Entity) :
    (r.registerAll cs).1.collections.names = (Named.names cs).eraseDups := by
  induction cs using List.reverseRecOn with
  | nil => exact congrArg Table.names none
  | append_singleton cs c ih =>
    rw [registerAll_concat, names_registerCollection, ih, Named.put_eraseDups]
    simp [Named.names, nameOf]

/-- A definition is emitted if it is the first of its name and whole. -/
theorem emitted_registerAll (cs : List Entity) :
    (r.registerAll cs).2 = (withEarlier cs).map fun (earlier, c) =>
      decide (c.name ∉ Named.names earlier ∧ c.IsWhole) := by
  induction cs using List.reverseRecOn with
  | nil => rfl
  | append_singleton cs c ih =>
    rw [registerAll_concat, withEarlier_concat, List.map_append, ← ih,
      emitted_registerCollection, names_registerAll none]
    simp

theorem kinds_registerAll (cs : List Entity) :
    ∃ found, (r.registerAll cs).1.findings = r.findings ++ found ∧
      (found.map Finding.kind).count .conflict =
        (laterDefinitions cs).countP (fun (first, c) => !first.sameMembers c) ∧
      (found.map Finding.kind).count .emptyDefinition = (namesLacking cs).length := by
  induction cs using List.reverseRecOn with
  | nil => exact ⟨[], (List.append_nil _).symm, rfl, rfl⟩
  | append_singleton cs c ih =>
    obtain ⟨found, earlier, conflicts, lacking⟩ := ih
    obtain ⟨now, added, kinds⟩ := kinds_registerCollection (r.registerAll cs).1 c
    rw [find?_registerAll none] at kinds
    refine ⟨found ++ now, ?_, ?_, ?_⟩
    · rw [registerAll_concat, added, earlier, List.append_assoc]
    · rw [List.map_append, List.count_append, conflicts, kinds, laterDefinitions_concat,
        List.countP_append]
      cases known : Named.find? cs c.name with
      | none => by_cases whole : c.IsWhole <;> simp [whole]
      | some first =>
        by_cases same : first.sameMembers c = true <;> simp [same]
    · rw [List.map_append, List.count_append, lacking, kinds, namesLacking_concat,
        List.length_append]
      cases known : Named.find? cs c.name with
      | none =>
        have absent := Named.find?_eq_none_iff.mp known
        by_cases whole : c.IsWhole <;> simp [whole, absent]
      | some first =>
        have listed := Named.find?_isSome_iff.mp ⟨first, known⟩
        by_cases same : first.sameMembers c = true <;> simp [same, listed]

end Runs

/-- From an empty table of collections, the table ends with one entry for each name, in the
order of the first definitions, and the entry is the first definition of its name, emitted
exactly if it is whole. A call says that it emitted its definition exactly if that is the
first of its name and whole. There is one conflict for each later definition with other
members than the first, and one empty definition for each name whose first definition is not
whole. -/
theorem registerAll_first_wins (r : Registry) (cs : List Entity) :
    let run := { r with collections := .empty }.registerAll cs
    run.1.collections.names = (Named.names cs).eraseDups ∧
      (∀ name, run.1.collections.find? name = (Named.find? cs name).map fun first =>
        { first with emitted := decide first.IsWhole }) ∧
      (run.2 = (withEarlier cs).map fun (earlier, c) =>
        decide (c.name ∉ Named.names earlier ∧ c.IsWhole)) ∧
      ∃ found, run.1.findings = r.findings ++ found ∧
        (found.map Finding.kind).count .conflict =
          (laterDefinitions cs).countP (fun (first, c) => !first.sameMembers c) ∧
        (found.map Finding.kind).count .emptyDefinition = (namesLacking cs).length := by
  intro run
  exact ⟨names_registerAll rfl cs, find?_registerAll rfl cs, emitted_registerAll rfl cs,
    kinds_registerAll rfl cs⟩

end Registry

end PrintRegistry
