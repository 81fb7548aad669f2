import PrintRegistry.Proofs.Entity
import PrintRegistry.Registry

/-!
Attributes of a registry. They are known by family and name, and a change to
one of them is seen there alone.
-/

namespace PrintRegistry

/-- In a fold whose steps keep an invariant, what each element settles, and no
other element takes back, holds of all elements in the end. -/
theorem foldl_settles {α β : Type} {step : β → α → β} {motive : α → β → Prop} {as : List α}
    (inv : β → Prop) (keep : ∀ b, inv b → ∀ a ∈ as, inv (step b a))
    (settle : ∀ b, inv b → ∀ a ∈ as, motive a (step b a))
    (stay : ∀ b, inv b → ∀ a, motive a b → ∀ other ∈ as, motive a (step b other))
    {b : β} (start : inv b) : ∀ a ∈ as, motive a (as.foldl step b) := by
  -- From the end of the list, where what the last step may take back is at hand.
  induction as using List.reverseRecOn with
  | nil => intro a member; cases member
  | append_singleton as last ih =>
    have before : ∀ a ∈ as, a ∈ as ++ [last] := fun a member => List.mem_append_left _ member
    have final : last ∈ as ++ [last] := List.mem_append_right _ List.mem_cons_self
    have holds : inv (as.foldl step b) :=
      List.foldlRecOn (motive := inv) as step start fun b holds a member =>
        keep b holds a (before a member)
    have earlier := ih (fun b h a member => keep b h a (before a member))
      (fun b h a member => settle b h a (before a member))
      (fun b h a settled other member => stay b h a settled other (before other member))
    intro a member
    rw [List.foldl_append, List.foldl_cons, List.foldl_nil]
    rcases List.mem_append.mp member with old | new
    · exact stay _ holds a (earlier a old) last final
    · obtain rfl := List.mem_singleton.mp new
      exact settle _ holds a final

/-- What every step of a fold leaves alone is in the end as it was. -/
theorem foldl_keeps {α β γ : Type} (step : β → α → β) (view : β → γ)
    (keeps : ∀ b a, view (step b a) = view b) (as : List α) (b : β) :
    view (as.foldl step b) = view b :=
  List.foldlRecOn (motive := fun after => view after = view b) as step rfl fun after same a _ =>
    (keeps after a).trans same

/-- What a function finds among the elements of a list matches those for which it finds
something. -/
theorem forall₂_filterMap {α β : Type} {f : α → Option β} {R : α → β → Prop} {as : List α}
    (h : ∀ a ∈ as, ∀ b, f a = some b → R a b) :
    List.Forall₂ R (as.filter fun a => (f a).isSome) (as.filterMap f) := by
  induction as with
  | nil => exact .nil
  | cons a as ih =>
    have rest := ih fun x listed => h x (List.mem_cons_of_mem a listed)
    cases found : f a with
    | none => simpa [found] using rest
    | some b => simpa [found] using ⟨h a List.mem_cons_self b found, rest⟩

namespace Registry

/-- All attributes, without their families. What is inside them are the entities at any
depth of the attribute tables. -/
def allAttributes (r : Registry) : List Entity :=
  r.attributes.map Prod.snd

theorem attribute?_congr {r r' : Registry} (same : r'.families = r.families)
    (family name : String) : r'.attribute? family name = r.attribute? family name := by
  rw [attribute?, attribute?, family?, family?, same]

/-- The attribute of a name in a family is one of all attributes, and each of
them is found so. -/
theorem mem_attributes_iff {r : Registry} {family : String} {e : Entity} :
    (family, e) ∈ r.attributes ↔ r.attribute? family e.name = some e := by
  simp only [attributes, attribute?, family?, List.mem_flatMap, List.mem_map, Prod.mk.injEq,
    Option.bind_eq_some_iff, Option.map_eq_some_iff]
  constructor
  · rintro ⟨f, listed, a, member, rfl, rfl⟩
    exact ⟨f.attributes, ⟨f, Table.find?_of_mem listed, rfl⟩, Table.find?_of_mem member⟩
  · rintro ⟨_, ⟨f, listed, rfl⟩, found⟩
    obtain ⟨known, named⟩ := Table.mem_of_find? listed
    exact ⟨f, known, e, (Table.mem_of_find? found).1, named, rfl⟩

theorem name_of_attribute? {r : Registry} {family name : String} {e : Entity}
    (h : r.attribute? family name = some e) : e.name = name := by
  obtain ⟨t, -, found⟩ := Option.bind_eq_some_iff.mp h
  exact (Table.mem_of_find? found).2

theorem mem_attributes_of_attribute? {r : Registry} {family name : String} {e : Entity}
    (h : r.attribute? family name = some e) : (family, e) ∈ r.attributes :=
  mem_attributes_iff.mpr (name_of_attribute? h ▸ h)

/-- The members of all attributes have distinct names at every depth. -/
def DistinctMembers (r : Registry) : Prop :=
  ∀ family name e, r.attribute? family name = some e → e.Distinct

/-- Changing the attributes of a family, there or not, is seen in that family
alone. -/
theorem family?_alterFamily (r : Registry) (title : String)
    (change : Table Entity → Table Entity) (family : String) :
    (r.alterFamily title change).family? family =
      if family = title then some (change ((r.family? title).getD .empty))
      else r.family? family := by
  have families := Table.find?_upsert r.families ⟨title, .empty⟩
    (fun f => { f with attributes := change f.attributes }) (fun _ => rfl) family
  simp only [family?, alterFamily, families]
  by_cases same : family = title
  · subst same
    cases known : r.families.find? family <;> simp [nameOf]
  · simp [nameOf, same]

theorem attribute?_alterFamily (r : Registry) (title : String)
    (change : Table Entity → Table Entity) (family name : String) :
    (r.alterFamily title change).attribute? family name =
      if family = title then (change ((r.family? title).getD .empty)).find? name
      else r.attribute? family name := by
  rw [attribute?, family?_alterFamily]
  by_cases same : family = title
  · rw [if_pos same, if_pos same, Option.bind_some]
  · rw [if_neg same, if_neg same, attribute?]

theorem attribute?_putAttribute (r : Registry) (title : String) (e : Entity)
    (family name : String) :
    (r.alterFamily title (·.put e)).attribute? family name =
      if family = title ∧ name = e.name then some e else r.attribute? family name := by
  rw [attribute?_alterFamily]
  by_cases sameFamily : family = title
  · subst sameFamily
    rw [if_pos rfl, Table.find?_put]
    by_cases same : name = e.name
    · simp [nameOf, same]
    · cases known : r.family? family <;> simp [nameOf, same, Ne.symm same, attribute?, known]
  · simp [sameFamily]

def adjustFamily (r : Registry) (family : String) (change : Table Entity → Table Entity) :
    Registry :=
  { r with
    families := r.families.adjust family fun f => { f with attributes := change f.attributes } }

theorem attribute?_adjustFamily (r : Registry) (family : String)
    (change : Table Entity → Table Entity) (family' name : String) :
    (r.adjustFamily family change).attribute? family' name =
      if family' = family then ((r.family? family).map change).bind (·.find? name)
      else r.attribute? family' name := by
  have families := Table.find?_adjust r.families family
    (fun f => { f with attributes := change f.attributes }) (fun _ => rfl) family'
  simp only [attribute?, family?, adjustFamily, families]
  by_cases same : family' = family
  · simp [same, Function.comp_def]
  · simp [same]

theorem attribute?_adjustAttribute (r : Registry) (family name : String)
    (change : Entity → Entity) (keeps : ∀ e, (change e).name = e.name) (family' name' : String) :
    (r.adjustAttribute family name change).attribute? family' name' =
      if family' = family ∧ name' = name then (r.attribute? family name).map change
      else r.attribute? family' name' := by
  have alone := attribute?_adjustFamily r family (·.adjust name change) family' name'
  rw [adjustFamily] at alone
  rw [adjustAttribute, alone]
  by_cases sameFamily : family' = family
  · subst sameFamily
    rw [if_pos rfl]
    cases known : r.family? family' with
    | none => simp [attribute?, known]
    | some t =>
      simp only [attribute?, known, Option.map_some, Option.bind_some, true_and]
      exact Table.find?_adjust t name change keeps name'
  · simp [sameFamily]

theorem attribute?_eraseAttribute (r : Registry) (family name family' name' : String) :
    (r.adjustFamily family (·.erase name)).attribute? family' name' =
      if family' = family ∧ name' = name then none else r.attribute? family' name' := by
  rw [attribute?_adjustFamily]
  by_cases sameFamily : family' = family
  · subst sameFamily
    rw [if_pos rfl]
    cases known : r.family? family' with
    | none => simp [attribute?, known]
    | some t =>
      simp only [attribute?, known, Option.map_some, Option.bind_some, true_and]
      exact Table.find?_erase t name name'
  · simp [sameFamily]

/-- A change that alters no declaration's presence: every name is declared in
the same families as before. -/
theorem attribute?_adjustAttribute_isSome (r : Registry) (family name : String)
    (change : Entity → Entity) (keeps : ∀ e, (change e).name = e.name) (family' name' : String) :
    ((r.adjustAttribute family name change).attribute? family' name').isSome =
      (r.attribute? family' name').isSome := by
  rw [attribute?_adjustAttribute r family name change keeps]
  split
  · rename_i same
    rw [Option.isSome_map, same.1, same.2]
  · rfl

end Registry

end PrintRegistry
