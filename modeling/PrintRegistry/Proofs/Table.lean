import Mathlib.Data.List.Induction
import PrintRegistry.Table

/-!
Looking names up in tables. An entry put in is the one found under its name,
and every other name is found as before. In a list of distinct names, being an
entry and being found under one's own name are the same.
-/

namespace PrintRegistry.Named

variable {α : Type} [Named α]

theorem mem_of_find? {xs : List α} {name : String} {a : α} (h : find? xs name = some a) :
    a ∈ xs ∧ nameOf a = name :=
  ⟨List.mem_of_find?_eq_some h, by simpa using List.find?_some h⟩

theorem find?_eq_none_iff {xs : List α} {name : String} :
    find? xs name = none ↔ name ∉ names xs := by
  simp [find?, names]

theorem find?_isSome_iff {xs : List α} {name : String} :
    (∃ a, find? xs name = some a) ↔ name ∈ names xs := by
  rw [← Option.isSome_iff_exists, ← not_iff_not, Option.not_isSome_iff_eq_none,
    find?_eq_none_iff]

theorem has_iff {xs : List α} {name : String} : has xs name = true ↔ name ∈ names xs := by
  rw [has, Option.isSome_iff_exists, find?_isSome_iff]

theorem mem_names {xs : List α} {a : α} (h : a ∈ xs) : nameOf a ∈ names xs :=
  List.mem_map_of_mem h

/-- Names being distinct, the entry found under the name of an entry is that
entry itself. -/
theorem find?_of_mem {xs : List α} (h : (names xs).Nodup) {a : α} (ha : a ∈ xs) :
    find? xs (nameOf a) = some a := by
  induction xs with
  | nil => cases ha
  | cons b bs ih =>
    simp only [names, List.map_cons, List.nodup_cons] at h
    rcases List.mem_cons.mp ha with same | later
    · subst same
      simp [find?]
    · have different : nameOf b ≠ nameOf a := by
        intro same
        exact h.1 (same ▸ mem_names later)
      have found := ih h.2 later
      simpa [find?, different] using found

theorem find?_put (xs : List α) (a : α) (name : String) :
    find? (put xs a) name = if nameOf a = name then some a else find? xs name := by
  induction xs with
  | nil =>
    by_cases h : nameOf a = name <;> simp [put, find?, h]
  | cons b bs ih =>
    simp only [put]
    by_cases taken : nameOf b = nameOf a
    · by_cases h : nameOf a = name
      · simp [find?, taken, h]
      · simp [find?, taken, h]
    · by_cases here : nameOf b = name
      · have h : nameOf a ≠ name := fun same => taken (here.trans same.symm)
        rw [if_neg taken, if_neg h]
        simp [find?, here]
      · simpa [find?, taken, here] using ih

theorem mem_put {xs : List α} {a b : α} (h : b ∈ put xs a) : b = a ∨ b ∈ xs := by
  induction xs with
  | nil => simpa [put] using h
  | cons c cs ih =>
    simp only [put] at h
    by_cases taken : nameOf c = nameOf a
    · rw [if_pos taken] at h
      rcases List.mem_cons.mp h with same | later
      · exact Or.inl same
      · exact Or.inr (List.mem_cons_of_mem c later)
    · rw [if_neg taken] at h
      rcases List.mem_cons.mp h with same | later
      · exact Or.inr (by simp [same])
      · rcases ih later with same | old
        · exact Or.inl same
        · exact Or.inr (List.mem_cons_of_mem c old)

theorem mem_names_put {xs : List α} {a : α} {name : String} :
    name ∈ names (put xs a) ↔ name = nameOf a ∨ name ∈ names xs := by
  rw [← find?_isSome_iff, ← find?_isSome_iff, find?_put]
  by_cases h : nameOf a = name
  · simp [h]
  · simp [h, Ne.symm h]

theorem put_of_new {xs : List α} {a : α} (h : nameOf a ∉ names xs) : put xs a = xs ++ [a] := by
  induction xs with
  | nil => rfl
  | cons b bs ih =>
    simp only [names, List.map_cons, List.mem_cons, not_or] at h
    simp [put, Ne.symm h.1, ih h.2]

/-- Names being distinct, what is put in takes the place of the entry of its name. -/
theorem put_of_known {xs : List α} {a : α} (distinct : (names xs).Nodup)
    (known : nameOf a ∈ names xs) :
    put xs a = xs.map fun b => if nameOf b = nameOf a then a else b := by
  induction xs with
  | nil => cases known
  | cons b bs ih =>
    simp only [names, List.map_cons, List.nodup_cons, List.mem_cons] at distinct known
    by_cases here : nameOf b = nameOf a
    · have rest : ∀ c ∈ bs, (if nameOf c = nameOf a then a else c) = c := by
        intro c listed
        refine if_neg fun same => distinct.1 ?_
        rw [here, ← same]
        exact mem_names listed
      rw [put, if_pos here, List.map_cons, if_pos here, List.map_congr_left rest, List.map_id']
    · have later : nameOf a ∈ names bs := known.resolve_left (Ne.symm here)
      rw [put, if_neg here, List.map_cons, if_neg here, ih distinct.2 later]

theorem find?_filter_ne (xs : List α) (name other : String) :
    find? (xs.filter (nameOf · != name)) other = if other = name then none else find? xs other := by
  induction xs with
  | nil => simp [find?]
  | cons b bs ih =>
    by_cases gone : nameOf b = name
    · by_cases same : other = name
      · rw [if_pos same] at ih ⊢
        simpa [find?, gone] using ih
      · simpa [find?, gone, same, Ne.symm same] using ih
    · by_cases here : nameOf b = other
      · have different : other ≠ name := fun same => gone (here.trans same)
        simp [find?, here, different]
      · simpa [find?, gone, here] using ih

theorem put_string (xs : List String) (s : String) :
    put xs s = if s ∈ xs then xs else xs ++ [s] := by
  induction xs with
  | nil => rfl
  | cons x xs ih =>
    by_cases same : x = s
    · simp [put, nameOf, same]
    · have other : ¬ s = x := Ne.symm same
      by_cases later : s ∈ xs <;> simp [put, nameOf, same, other, later] at ih ⊢ <;> exact ih

/-- Putting a text in keeps repeats out: each text stays where it is first
mentioned. -/
theorem put_eraseDups (xs : List String) (s : String) :
    put xs.eraseDups s = (xs ++ [s]).eraseDups := by
  rw [put_string, List.eraseDups_append]
  by_cases old : s ∈ xs
  · simp [old, List.removeAll]
  · simp [old, List.removeAll, List.eraseDups_cons]

theorem names_put_eq (xs : List α) (a : α) : names (put xs a) = put (names xs) (nameOf a) := by
  rw [names_put, put_string]

theorem putAll_concat (xs as : List α) (a : α) : putAll xs (as ++ [a]) = put (putAll xs as) a := by
  simp [putAll]

/-- Entries put into an empty list have the names mentioned, in order of first
mention. -/
theorem names_putAll (as : List α) : names (putAll [] as) = (names as).eraseDups := by
  induction as using List.reverseRecOn with
  | nil => rfl
  | append_singleton as a ih =>
    rw [putAll_concat, names_put_eq, ih, put_eraseDups]
    simp [names]

/-- Of several entries of one name, the last one is found. -/
theorem find?_putAll (as : List α) (name : String) :
    find? (putAll [] as) name = (as.filter (nameOf · == name)).getLast? := by
  induction as using List.reverseRecOn with
  | nil => rfl
  | append_singleton as a ih =>
    rw [putAll_concat, find?_put, ih]
    by_cases same : nameOf a = name <;> simp [same]

end PrintRegistry.Named

namespace PrintRegistry.Table

variable {α : Type} [Named α]

theorem mem_of_find? {t : Table α} {name : String} {a : α} (h : t.find? name = some a) :
    a ∈ t.toList ∧ nameOf a = name :=
  Named.mem_of_find? h

theorem find?_of_mem {t : Table α} {a : α} (h : a ∈ t.toList) : t.find? (nameOf a) = some a :=
  Named.find?_of_mem t.distinct h

theorem has_iff {t : Table α} {name : String} : t.has name = true ↔ name ∈ t.names :=
  Named.has_iff

@[simp] theorem find?_empty (name : String) : (empty : Table α).find? name = none := rfl

@[simp] theorem find?_put (t : Table α) (a : α) (name : String) :
    (t.put a).find? name = if nameOf a = name then some a else t.find? name :=
  Named.find?_put t.toList a name

theorem mem_put {t : Table α} {a b : α} (h : b ∈ (t.put a).toList) : b = a ∨ b ∈ t.toList :=
  Named.mem_put h

theorem put_of_new {t : Table α} {a : α} (h : t.find? (nameOf a) = none) :
    (t.put a).toList = t.toList ++ [a] :=
  Named.put_of_new (Named.find?_eq_none_iff.mp h)

/-- A change that keeps the name is seen under that name alone. -/
theorem find?_adjust (t : Table α) (name : String) (change : α → α)
    (keeps : ∀ a, nameOf (change a) = nameOf a) (other : String) :
    (t.adjust name change).find? other =
      if other = name then (t.find? name).map change else t.find? other := by
  unfold adjust
  cases found : t.find? name with
  | none =>
    by_cases same : other = name
    · simp [same, found]
    · simp [same]
  | some a =>
    have named : nameOf a = name := (mem_of_find? found).2
    simp only [find?_put, keeps, named, Option.map_some]
    by_cases same : other = name
    · simp [same]
    · simp [same, Ne.symm same]

/-- A change that keeps the name leaves all entries in their places. -/
theorem toList_adjust (t : Table α) (name : String) (change : α → α)
    (keeps : ∀ a, nameOf (change a) = nameOf a) : (t.adjust name change).toList =
      t.toList.map fun a => if nameOf a = name then change a else a := by
  unfold adjust
  cases found : t.find? name with
  | none =>
    have same : ∀ a ∈ t.toList, (if nameOf a = name then change a else a) = a := by
      intro a listed
      refine if_neg fun named => Named.find?_eq_none_iff.mp found ?_
      exact named ▸ Named.mem_names listed
    rw [List.map_congr_left same, List.map_id']
  | some a =>
    obtain ⟨listed, named⟩ := mem_of_find? found
    have known : nameOf (change a) ∈ Named.names t.toList := keeps a ▸ Named.mem_names listed
    refine (Named.put_of_known t.distinct known).trans (List.map_congr_left fun b member => ?_)
    rw [keeps, named]
    by_cases here : nameOf b = name
    · have itself : some b = some a := (find?_of_mem member).symm.trans (here ▸ found)
      rw [if_pos here, if_pos here, Option.some.inj itself]
    · rw [if_neg here, if_neg here]

theorem find?_upsert (t : Table α) (fresh : α) (change : α → α)
    (keeps : ∀ a, nameOf (change a) = nameOf a) (other : String) :
    (t.upsert fresh change).find? other =
      if other = nameOf fresh then some (change ((t.find? (nameOf fresh)).getD fresh))
      else t.find? other := by
  have named : nameOf ((t.find? (nameOf fresh)).getD fresh) = nameOf fresh := by
    cases found : t.find? (nameOf fresh) with
    | none => rfl
    | some a => exact (mem_of_find? found).2
  simp only [upsert, find?_put, keeps, named]
  by_cases same : other = nameOf fresh
  · simp [same]
  · simp [same, Ne.symm same]

/-- Of several entries of one name that are put in, the last one is found. -/
theorem find?_foldl_put (as : List α) (t : Table α) (name : String) :
    (as.foldl put t).find? name =
      (as.filter (nameOf · == name)).getLast?.or (t.find? name) := by
  induction as using List.reverseRecOn with
  | nil => rfl
  | append_singleton as a ih =>
    rw [List.foldl_append, List.foldl_cons, List.foldl_nil, find?_put, ih]
    by_cases same : nameOf a = name <;> simp [same]

theorem find?_erase (t : Table α) (name other : String) :
    (t.erase name).find? other = if other = name then none else t.find? other :=
  Named.find?_filter_ne t.toList name other

theorem find?_map (t : Table α) {change : α → α} (keeps : ∀ a, nameOf (change a) = nameOf a)
    (name : String) : (t.map change keeps).find? name = (t.find? name).map change := by
  simp only [find?, Named.find?, Table.map, List.find?_map, Function.comp_def, keeps]

end PrintRegistry.Table
