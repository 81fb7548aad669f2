import PrintRegistry.Record.Decoding
import PrintRegistry.Record.Encoding
import Mathlib.Data.List.Forall2
import Mathlib.Data.List.Nodup

/-!
Reading records from data. The fields of an object fill the slots of a shape one after another,
each the slot of its name, so that neither their order nor the fields without a slot make a
difference. What is written for a record fills the slots with what its fields are read back from.
-/

namespace PrintRegistry

namespace Decoded

variable {α β : Type}

theorem bind_eq_ok {x : Decoded α} {f : α → Decoded β} {b : β} :
    x >>= f = .ok b ↔ ∃ a, x = .ok a ∧ f a = .ok b := by
  cases x with
  | error fault => exact ⟨nofun, nofun⟩
  | ok a => exact ⟨fun done => ⟨a, rfl, done⟩, fun ⟨_, same, done⟩ => by cases same; exact done⟩

theorem bind_ok {x : Decoded α} {f : α → Decoded β} {a : α} {b : β} (done : x = .ok a)
    (rest : f a = .ok b) : x >>= f = .ok b :=
  bind_eq_ok.mpr ⟨a, done, rest⟩

theorem map_eq_ok {x : Decoded α} {f : α → β} {b : β} :
    x.map f = .ok b ↔ ∃ a, x = .ok a ∧ f a = b := by
  cases x with
  | error fault => exact ⟨nofun, nofun⟩
  | ok a => simp [Except.map]

theorem mapM_eq_ok {read : Json → Decoded α} {items : List Json} {as : List α} :
    items.mapM read = .ok as ↔ List.Forall₂ (fun item a => read item = .ok a) items as := by
  induction items generalizing as with
  | nil =>
    rw [List.mapM_nil, List.forall₂_nil_left_iff]
    exact ⟨fun h => by cases h; rfl, fun h => by rw [h]; rfl⟩
  | cons item items ih =>
    rw [List.mapM_cons, bind_eq_ok]
    constructor
    · rintro ⟨a, first, done⟩
      obtain ⟨rest, others, done⟩ := bind_eq_ok.mp done
      cases done
      exact .cons first (ih.mp others)
    · rintro (_ | ⟨first, others⟩)
      exact ⟨_, first, bind_eq_ok.mpr ⟨_, ih.mpr others, rfl⟩⟩

end Decoded

theorem Json.ignore_eq_ok {j : Json} : j.ignore = .ok () ↔ j.passOver = .ok () := by
  rw [ignore]
  cases j.passOver with
  | error fault => exact ⟨nofun, nofun⟩
  | ok done => exact ⟨fun _ => rfl, fun _ => rfl⟩

theorem FieldShape.check_of {α : Type} {names : List String} {read : Json → Decoded α} {j : Json} :
    (FieldShape.of names read).check j = .ok () ↔ ∃ a, read j = .ok a := by
  simp only [FieldShape.of, Decoded.map_eq_ok, and_true]

theorem Slots.set_held {slots : Slots} {index : Nat} {held : Option Json}
    (taken : slots[index]? = some held) : slots.set index held = slots := by
  obtain ⟨inside, rfl⟩ := List.getElem?_eq_some_iff.mp taken
  exact List.set_getElem_self inside

namespace RecordShape

variable {shape : RecordShape} {slots filled : Slots} {name : String} {value : Json}
  {fields others : List (String × Json)} {index : Nat} {field : FieldShape}

/-- No name belongs to two fields. -/
def IsUnambiguous (shape : RecordShape) : Prop :=
  (shape.fields.flatMap (·.names)).Nodup

instance : Decidable shape.IsUnambiguous :=
  inferInstanceAs (Decidable (List.Nodup _))

/-- A name belongs to the field that has it. -/
theorem indexOf?_eq_some (unambiguous : shape.IsUnambiguous)
    (found : shape.fields[index]? = some field) (named : name ∈ field.names) :
    shape.indexOf? name = some index := by
  obtain ⟨inside, rfl⟩ := List.getElem?_eq_some_iff.mp found
  rw [indexOf?, List.findIdx?_eq_some_iff_getElem]
  refine ⟨inside, List.contains_iff_mem.mpr named, fun before earlier => ?_⟩
  have disjoint := List.pairwise_iff_getElem.mp (List.nodup_flatMap.mp unambiguous).2
    before index (Nat.lt_trans earlier inside) inside earlier
  exact fun also => disjoint (List.contains_iff_mem.mp also) named

theorem mem_names_of_indexOf? (known : shape.indexOf? name = some index)
    (found : shape.fields[index]? = some field) : name ∈ field.names := by
  obtain ⟨inside, rfl⟩ := List.getElem?_eq_some_iff.mp found
  obtain ⟨_, named, -⟩ := List.findIdx?_eq_some_iff_getElem.mp known
  exact List.contains_iff_mem.mp named

theorem indexOf?_eq_none_iff :
    shape.indexOf? name = none ↔ ∀ field ∈ shape.fields, name ∉ field.names := by
  simp only [indexOf?, List.findIdx?_eq_none_iff, List.contains_iff_mem,
    ← Bool.not_eq_true]

/-- A field of an object is passed over, or fills a slot that is free. -/
theorem takeField_eq_ok : shape.takeField slots name value = .ok filled ↔
    (shape.indexOf? name = none ∧ value.passOver = .ok () ∧ filled = slots) ∨
    ∃ index field, shape.indexOf? name = some index ∧ slots[index]? = some none ∧
      shape.fields[index]? = some field ∧ field.check value = .ok () ∧
      filled = slots.set index (some value) := by
  rw [takeField]
  cases at' : shape.indexOf? name with
  | none =>
    simp only [Decoded.map_eq_ok, reduceCtorEq, false_and, exists_false, or_false, true_and]
    constructor
    · rintro ⟨⟨⟩, passed, rfl⟩
      exact ⟨Json.ignore_eq_ok.mp passed, rfl⟩
    · rintro ⟨passed, rfl⟩
      exact ⟨(), Json.ignore_eq_ok.mpr passed, rfl⟩
  | some index =>
    simp only [reduceCtorEq, false_and, false_or, Option.some.injEq]
    split
    · rename_i field free known
      constructor
      · intro done
        obtain ⟨⟨⟩, checked, rfl⟩ := Decoded.map_eq_ok.mp done
        exact ⟨index, field, rfl, free, known, checked, rfl⟩
      · rintro ⟨_, _, rfl, -, same, checked, rfl⟩
        cases known.symm.trans same
        exact Decoded.map_eq_ok.mpr ⟨(), checked, rfl⟩
    · rename_i other
      exact ⟨nofun, fun ⟨_, field, same, free, known, _⟩ =>
        (other field (same ▸ free) (same ▸ known)).elim⟩

/-- Takes fields of an object in, one after another. -/
def takeFields (shape : RecordShape) (slots : Slots) (fields : List (String × Json)) :
    Decoded Slots :=
  fields.foldlM (fun slots (name, value) => shape.takeField slots name value) slots

theorem slots_object :
    shape.slots (.object fields) = shape.takeFields (shape.fields.map fun _ => none) fields := by
  rw [RecordShape.slots, takeFields]

theorem takeFields_cons : shape.takeFields slots ((name, value) :: fields) =
    shape.takeField slots name value >>= fun next => shape.takeFields next fields :=
  List.foldlM_cons

theorem takeFields_cons_eq_ok : shape.takeFields slots ((name, value) :: fields) = .ok filled ↔
    ∃ next, shape.takeField slots name value = .ok next ∧
      shape.takeFields next fields = .ok filled := by
  rw [takeFields_cons, Decoded.bind_eq_ok]

/-- A slot that is filled stays as it is, and no field of its name follows. -/
theorem indexOf?_ne_of_filled (taken : slots[index]? = some (some value))
    (done : shape.takeFields slots fields = .ok filled) :
    ∀ given ∈ fields, shape.indexOf? given.1 ≠ some index := by
  induction fields generalizing slots with
  | nil => exact nofun
  | cons given fields ih =>
    obtain ⟨name, other⟩ := given
    obtain ⟨next, first, rest⟩ := takeFields_cons_eq_ok.mp done
    rw [List.forall_mem_cons]
    rcases takeField_eq_ok.mp first with ⟨unknown, -, rfl⟩ | ⟨i, -, known, free, -, -, rfl⟩
    · exact ⟨fun known => (nomatch unknown.symm.trans known), ih taken rest⟩
    · have apart : i ≠ index := by
        rintro rfl
        cases free.symm.trans taken
      refine ⟨fun same => apart (Option.some.inj (known.symm.trans same)), ih ?_ rest⟩
      rwa [List.getElem?_set_ne apart]

/-- Fields of other names take no notice of what a slot holds, and leave it. -/
theorem takeFields_set (apart : ∀ given ∈ fields, shape.indexOf? given.1 ≠ some index)
    (done : shape.takeFields slots fields = .ok filled) (held : Option Json) :
    shape.takeFields (slots.set index held) fields = .ok (filled.set index held) ∧
      filled[index]? = slots[index]? := by
  induction fields generalizing slots with
  | nil =>
    cases done
    exact ⟨rfl, rfl⟩
  | cons given fields ih =>
    obtain ⟨name, value⟩ := given
    obtain ⟨next, first, done⟩ := takeFields_cons_eq_ok.mp done
    have ⟨here, later⟩ := List.forall_mem_cons.mp apart
    obtain ⟨rest, kept⟩ := ih later done
    rw [takeFields_cons_eq_ok]
    rcases takeField_eq_ok.mp first with ⟨unknown, passed, rfl⟩ |
      ⟨i, field, known, free, declared, checked, rfl⟩
    · exact ⟨⟨_, takeField_eq_ok.mpr (Or.inl ⟨unknown, passed, rfl⟩), rest⟩, kept⟩
    · have other : i ≠ index := fun same => here (same ▸ known)
      rw [List.getElem?_set_ne other] at kept
      rw [List.set_comm _ _ other] at rest
      refine ⟨⟨_, takeField_eq_ok.mpr (Or.inr ⟨i, field, known, ?_, declared, checked, rfl⟩),
        rest⟩, kept⟩
      rwa [List.getElem?_set_ne other.symm]

/-- Two fields that are taken in one after the other can be taken in the other way round. -/
theorem takeField_swap {a b : String × Json} {next : Slots}
    (first : shape.takeField slots a.1 a.2 = .ok next)
    (second : shape.takeField next b.1 b.2 = .ok filled) :
    ∃ other, shape.takeField slots b.1 b.2 = .ok other ∧
      shape.takeField other a.1 a.2 = .ok filled := by
  rcases takeField_eq_ok.mp first with ⟨unknown, passed, rfl⟩ |
    ⟨i, field, known, free, declared, checked, rfl⟩
  · exact ⟨filled, second, takeField_eq_ok.mpr (Or.inl ⟨unknown, passed, rfl⟩)⟩
  · rcases takeField_eq_ok.mp second with ⟨unknown', passed', rfl⟩ |
      ⟨j, field', known', free', declared', checked', rfl⟩
    · exact ⟨slots, takeField_eq_ok.mpr (Or.inl ⟨unknown', passed', rfl⟩), first⟩
    · have apart : i ≠ j := by
        rintro rfl
        have inside := (List.getElem?_eq_some_iff.mp free).1
        rw [List.getElem?_set_self inside] at free'
        cases free'
      rw [List.getElem?_set_ne apart] at free'
      refine ⟨_, takeField_eq_ok.mpr (Or.inr ⟨j, field', known', free', declared', checked', rfl⟩),
        takeField_eq_ok.mpr (Or.inr ⟨i, field, known, ?_, declared, checked, ?_⟩)⟩
      · rwa [List.getElem?_set_ne apart.symm]
      · exact List.set_comm _ _ apart

/-- The order of the fields makes no difference. -/
theorem takeFields_perm (permuted : fields.Perm others)
    (done : shape.takeFields slots fields = .ok filled) :
    shape.takeFields slots others = .ok filled := by
  induction permuted generalizing slots with
  | nil => exact done
  | cons given _ ih =>
    obtain ⟨next, first, done⟩ := takeFields_cons_eq_ok.mp done
    exact takeFields_cons_eq_ok.mpr ⟨next, first, ih done⟩
  | swap a b fields =>
    obtain ⟨next, first, done⟩ := takeFields_cons_eq_ok.mp done
    obtain ⟨after, second, done⟩ := takeFields_cons_eq_ok.mp done
    obtain ⟨other, second, first⟩ := takeField_swap first second
    exact takeFields_cons_eq_ok.mpr
      ⟨other, second, takeFields_cons_eq_ok.mpr ⟨after, first, done⟩⟩
  | trans _ _ ih₁ ih₂ => exact ih₂ (ih₁ done)

/-- A field that is not known changes nothing. -/
theorem slots_unknown (unknown : shape.indexOf? name = none) (passed : value.passOver = .ok ()) :
    shape.slots (.object ((name, value) :: fields)) = shape.slots (.object fields) := by
  have first (slots : Slots) : shape.takeField slots name value = .ok slots :=
    takeField_eq_ok.mpr (Or.inl ⟨unknown, passed, rfl⟩)
  rw [slots_object, slots_object, takeFields_cons, first]
  rfl

/-- The slot of a field that is not given is free. -/
theorem free_of_absent (declared : shape.fields[index]? = some field)
    (apart : ∀ given ∈ fields, shape.indexOf? given.1 ≠ some index)
    (done : shape.slots (.object fields) = .ok filled) : filled[index]? = some none := by
  rw [slots_object] at done
  rw [(takeFields_set apart done none).2, List.getElem?_map, declared]
  rfl

/-- A field that is known fills its slot and changes nothing else. No other one has its name. -/
theorem slots_cons_eq_ok (known : shape.indexOf? name = some index)
    (declared : shape.fields[index]? = some field) :
    shape.slots (.object ((name, value) :: fields)) = .ok filled ↔
      (∀ given ∈ fields, shape.indexOf? given.1 ≠ some index) ∧ field.check value = .ok () ∧
      ∃ slots, shape.slots (.object fields) = .ok slots ∧ slots[index]? = some none ∧
        filled = slots.set index (some value) := by
  rw [slots_object, slots_object, takeFields_cons_eq_ok]
  generalize emptied : (shape.fields.map fun _ => none : Slots) = empty
  have free : empty[index]? = some none := by
    rw [← emptied, List.getElem?_map, declared]
    rfl
  constructor
  · rintro ⟨next, first, done⟩
    rcases takeField_eq_ok.mp first with ⟨unknown, -, -⟩ |
      ⟨i, shaped, known', -, declared', checked, rfl⟩
    · cases unknown.symm.trans known
    · cases known.symm.trans known'
      cases declared.symm.trans declared'
      have held := List.getElem?_set_self (a := some value) (List.getElem?_eq_some_iff.mp free).1
      have apart := indexOf?_ne_of_filled held done
      obtain ⟨rest, kept⟩ := takeFields_set apart done none
      rw [List.set_set, Slots.set_held free] at rest
      rw [held] at kept
      refine ⟨apart, checked, filled.set index none, rest, ?_, ?_⟩
      · exact List.getElem?_set_self (List.getElem?_eq_some_iff.mp kept).1
      · rw [List.set_set, Slots.set_held kept]
  · rintro ⟨apart, checked, slots, done, -, rfl⟩
    exact ⟨_, takeField_eq_ok.mpr (Or.inr ⟨index, field, known, free, declared, checked, rfl⟩),
      (takeFields_set apart done _).1⟩

/-- The fields that are written of a record, each under its name if there is a value. -/
def written (entries : List (String × Option Json)) : List (String × Json) :=
  entries.filterMap fun (name, value) => value.map (name, ·)

/-- A field is written under a name of its own, with a value that it accepts. -/
def Accepts (field : FieldShape) (entry : String × Option Json) : Prop :=
  entry.1 ∈ field.names ∧ ∀ value ∈ entry.2, field.check value = .ok ()

theorem written_nil : written [] = [] := rfl

theorem written_cons (name : String) (value? : Option Json)
    (entries : List (String × Option Json)) : written ((name, value?) :: entries) =
    (value?.map (name, ·)).toList ++ written entries := by
  cases value? <;> rfl

/-- What is written of a record fills its slots. After some entries their slots are filled, and
those of the entries to come are free. -/
theorem takeFields_written (before : List (String × Option Json))
    {after : List (String × Option Json)} {fields : List FieldShape}
    (unambiguous : shape.IsUnambiguous) (rest : shape.fields.drop before.length = fields)
    (accepted : List.Forall₂ Accepts fields after) :
    shape.takeFields (before.map (·.2) ++ fields.map fun _ => none) (written after) =
      .ok ((before ++ after).map (·.2)) := by
  induction accepted generalizing before with
  | nil =>
    rw [List.map_nil, List.append_nil, List.append_nil]
    rfl
  | @cons field entry fields after accepts _ ih =>
    obtain ⟨name, value?⟩ := entry
    have dropped : shape.fields.drop (before ++ [(name, value?)]).length = fields := by
      rw [List.length_append, List.length_singleton, ← List.drop_drop, rest]
      rfl
    have taken := ih (before ++ [(name, value?)]) dropped
    rw [List.append_assoc, List.singleton_append, List.map_append, List.append_assoc] at taken
    rw [written_cons]
    cases value? with
    | none => exact taken
    | some value =>
      have declared : shape.fields[before.length]? = some field := by
        rw [← List.head?_drop, rest, List.head?_cons]
      have own := indexOf?_eq_some unambiguous declared accepts.1
      have place : before.length = (before.map (·.2)).length := (List.length_map _).symm
      refine takeFields_cons_eq_ok.mpr ⟨_, takeField_eq_ok.mpr (Or.inr
        ⟨before.length, field, own, ?_, declared, accepts.2 value rfl, ?_⟩), taken⟩
      · rw [place, List.getElem?_append_right (Nat.le_refl _), Nat.sub_self]
        rfl
      · rw [place, List.set_append_right _ _ (Nat.le_refl _), Nat.sub_self]
        rfl

theorem slots_written {entries : List (String × Option Json)} (unambiguous : shape.IsUnambiguous)
    (accepted : List.Forall₂ Accepts shape.fields entries) :
    shape.slots (.object (written entries)) = .ok (entries.map (·.2)) := by
  rw [slots_object]
  exact takeFields_written [] unambiguous rfl accepted

section Entries

variable {α : Type} {names : List String} {read : Json → Decoded α}

theorem accepts_required {a : α} (named : name ∈ names) (reads : read value = .ok a) :
    Accepts (.of names read) (name, some value) :=
  ⟨named, fun | _, rfl => FieldShape.check_of.mpr ⟨a, reads⟩⟩

theorem accepts_optional {write : α → Json} (o : Option α) (named : name ∈ names)
    (reads : ∀ a, Json.asOptional read (write a) = .ok (some a)) :
    Accepts (.of names (Json.asOptional read)) (name, o.map write) := by
  refine ⟨named, fun value given => ?_⟩
  obtain ⟨a, -, rfl⟩ := Option.map_eq_some_iff.mp given
  exact FieldShape.check_of.mpr ⟨_, reads a⟩

theorem optional_written {write : α → Json} {o : Option α}
    (held : slots[index]? = some (o.map write))
    (reads : ∀ a, Json.asOptional read (write a) = .ok (some a)) :
    slots.optional index read = .ok o := by
  rw [Slots.optional, held]
  cases o with
  | none => rfl
  | some a => exact reads a

theorem optionalField_eq (name : String) (write : α → Json) (o : Option α) :
    Json.optionalField name write o = ((o.map write).map (name, ·)).toList := by
  cases o <;> rfl

theorem asList_map {write : α → Json} (reads : ∀ a, read (write a) = .ok a) (as : List α) :
    Json.asList read (.array (as.map write)) = .ok as := by
  rw [Json.asList, Decoded.mapM_eq_ok, List.forall₂_map_left_iff, List.forall₂_same]
  exact fun a _ => reads a

end Entries

end RecordShape

open RecordShape

/-! ### What is written of a record is read back -/

theorem CitationKind.ofJson_label (kind : CitationKind) :
    ofJson (.string kind.label) = .ok kind := by
  cases kind <;> rfl

/-- The fields of a citation, with what is written for them. -/
def Citation.entries (c : Citation) : List (String × Option Json) :=
  [("type", some (.string c.kind.label)), ("data", some (.string c.data)),
    ("text", c.text.map .string)]

theorem Citation.toJson_eq (c : Citation) : c.toJson = .object (written c.entries) := by
  rw [toJson, optionalField_eq]
  rfl

theorem Citation.ofJson_toJson (c : Citation) : ofJson c.toJson = .ok c := by
  have accepted : List.Forall₂ Accepts shape.fields c.entries :=
    .cons (accepts_required (by decide) c.kind.ofJson_label)
      (.cons (accepts_required (by decide) rfl)
        (.cons (accepts_optional c.text (by decide) fun _ => rfl) .nil))
  rw [toJson_eq]
  refine Decoded.bind_ok (slots_written (by decide) accepted) ?_
  refine Decoded.bind_ok c.kind.ofJson_label ?_
  refine Decoded.bind_ok rfl ?_
  exact Decoded.bind_ok (optional_written rfl fun _ => rfl) rfl

theorem Citation.asOptional_toJson (c : Citation) :
    Json.asOptional ofJson c.toJson = .ok (some c) :=
  Decoded.map_eq_ok.mpr ⟨c, c.ofJson_toJson, rfl⟩

def EnumRecord.entries (r : EnumRecord) : List (String × Option Json) :=
  [("attribute", some (.string r.about)), ("name", r.name.map .string),
    ("value", r.value.map .string), ("syntax", r.grammar.map .string),
    ("xref", r.citation.map Citation.toJson)]

theorem EnumRecord.toJson_eq (r : EnumRecord) : r.toJson = .object (written r.entries) := by
  simp only [toJson, entries, optionalField_eq, written_cons, written_nil, List.append_assoc,
    List.append_nil]
  rfl

theorem EnumRecord.ofJson_toJson (r : EnumRecord) : ofJson r.toJson = .ok r := by
  have accepted : List.Forall₂ Accepts shape.fields r.entries :=
    .cons (accepts_required (by decide) rfl)
      (.cons (accepts_optional r.name (by decide) fun _ => rfl)
        (.cons (accepts_optional r.value (by decide) fun _ => rfl)
          (.cons (accepts_optional r.grammar (by decide) fun _ => rfl)
            (.cons (accepts_optional r.citation (by decide) Citation.asOptional_toJson) .nil))))
  rw [toJson_eq]
  refine Decoded.bind_ok (slots_written (by decide) accepted) ?_
  refine Decoded.bind_ok rfl ?_
  refine Decoded.bind_ok (optional_written rfl fun _ => rfl) ?_
  refine Decoded.bind_ok (optional_written rfl fun _ => rfl) ?_
  refine Decoded.bind_ok (optional_written rfl fun _ => rfl) ?_
  exact Decoded.bind_ok (optional_written rfl Citation.asOptional_toJson) rfl

def KeywordRecord.entries (r : KeywordRecord) : List (String × Option Json) :=
  [("attribute", some (.string r.about)), ("value", r.value.map .string),
    ("syntax", r.grammar.map .string), ("type", r.keywordType.map .string),
    ("xref", r.citation.map Citation.toJson)]

theorem KeywordRecord.toJson_eq (r : KeywordRecord) : r.toJson = .object (written r.entries) := by
  simp only [toJson, entries, optionalField_eq, written_cons, written_nil, List.append_assoc,
    List.append_nil]
  rfl

theorem KeywordRecord.ofJson_toJson (r : KeywordRecord) : ofJson r.toJson = .ok r := by
  have accepted : List.Forall₂ Accepts shape.fields r.entries :=
    .cons (accepts_required (by decide) rfl)
      (.cons (accepts_optional r.value (by decide) fun _ => rfl)
        (.cons (accepts_optional r.grammar (by decide) fun _ => rfl)
          (.cons (accepts_optional r.keywordType (by decide) fun _ => rfl)
            (.cons (accepts_optional r.citation (by decide) Citation.asOptional_toJson) .nil))))
  rw [toJson_eq]
  refine Decoded.bind_ok (slots_written (by decide) accepted) ?_
  refine Decoded.bind_ok rfl ?_
  refine Decoded.bind_ok (optional_written rfl fun _ => rfl) ?_
  refine Decoded.bind_ok (optional_written rfl fun _ => rfl) ?_
  refine Decoded.bind_ok (optional_written rfl fun _ => rfl) ?_
  exact Decoded.bind_ok (optional_written rfl Citation.asOptional_toJson) rfl

def AttributeRecord.entries (r : AttributeRecord) : List (String × Option Json) :=
  [("collection", some (.string r.family)), ("name", some (.string r.name)),
    ("member_attribute", r.member.map .string), ("sub_member_attribute", r.submember.map .string),
    ("syntax", r.grammar.map .string), ("xref", r.citation.map Citation.toJson)]

theorem AttributeRecord.toJson_eq (r : AttributeRecord) :
    r.toJson = .object (written r.entries) := by
  simp only [toJson, entries, optionalField_eq, written_cons, written_nil, List.append_assoc,
    List.append_nil]
  rfl

theorem AttributeRecord.ofJson_toJson (r : AttributeRecord) : ofJson r.toJson = .ok r := by
  have accepted : List.Forall₂ Accepts shape.fields r.entries :=
    .cons (accepts_required (by decide) rfl)
      (.cons (accepts_required (by decide) rfl)
        (.cons (accepts_optional r.member (by decide) fun _ => rfl)
          (.cons (accepts_optional r.submember (by decide) fun _ => rfl)
            (.cons (accepts_optional r.grammar (by decide) fun _ => rfl)
              (.cons (accepts_optional r.citation (by decide) Citation.asOptional_toJson)
                .nil)))))
  rw [toJson_eq]
  refine Decoded.bind_ok (slots_written (by decide) accepted) ?_
  refine Decoded.bind_ok rfl ?_
  refine Decoded.bind_ok rfl ?_
  refine Decoded.bind_ok (optional_written rfl fun _ => rfl) ?_
  refine Decoded.bind_ok (optional_written rfl fun _ => rfl) ?_
  refine Decoded.bind_ok (optional_written rfl fun _ => rfl) ?_
  exact Decoded.bind_ok (optional_written rfl Citation.asOptional_toJson) rfl

def StatusRecord.entries (r : StatusRecord) : List (String × Option Json) :=
  [("name", some (.string r.name)), ("value", some (.string r.value)),
    ("xref", r.citation.map Citation.toJson)]

theorem StatusRecord.toJson_eq (r : StatusRecord) : r.toJson = .object (written r.entries) := by
  rw [toJson, optionalField_eq]
  rfl

theorem StatusRecord.ofJson_toJson (r : StatusRecord) : ofJson r.toJson = .ok r := by
  have accepted : List.Forall₂ Accepts shape.fields r.entries :=
    .cons (accepts_required (by decide) rfl)
      (.cons (accepts_required (by decide) rfl)
        (.cons (accepts_optional r.citation (by decide) Citation.asOptional_toJson) .nil))
  rw [toJson_eq]
  refine Decoded.bind_ok (slots_written (by decide) accepted) ?_
  refine Decoded.bind_ok rfl ?_
  refine Decoded.bind_ok rfl ?_
  exact Decoded.bind_ok (optional_written rfl Citation.asOptional_toJson) rfl

def Records.entries (r : Records) : List (String × Option Json) :=
  [("updated", r.updated.map .string),
    ("enums", some (.array (r.enums.map EnumRecord.toJson))),
    ("keywords", some (.array (r.keywords.map KeywordRecord.toJson))),
    ("attributes", some (.array (r.attributes.map AttributeRecord.toJson))),
    ("status_codes", some (.array (r.statusCodes.map StatusRecord.toJson)))]

theorem Records.toJson_eq (r : Records) : r.toJson = .object (written r.entries) := by
  rw [toJson, optionalField_eq, entries, written_cons]
  rfl

theorem Records.ofJson_toJson (r : Records) : ofJson r.toJson = .ok r := by
  have enums := asList_map EnumRecord.ofJson_toJson r.enums
  have keywords := asList_map KeywordRecord.ofJson_toJson r.keywords
  have attributes := asList_map AttributeRecord.ofJson_toJson r.attributes
  have statusCodes := asList_map StatusRecord.ofJson_toJson r.statusCodes
  have accepted : List.Forall₂ Accepts shape.fields r.entries :=
    .cons (accepts_optional r.updated (by decide) fun _ => rfl)
      (.cons (accepts_required (by decide) enums)
        (.cons (accepts_required (by decide) keywords)
          (.cons (accepts_required (by decide) attributes)
            (.cons (accepts_required (by decide) statusCodes) .nil))))
  rw [toJson_eq]
  refine Decoded.bind_ok (slots_written (by decide) accepted) ?_
  refine Decoded.bind_ok (optional_written rfl fun _ => rfl) ?_
  refine Decoded.bind_ok enums ?_
  refine Decoded.bind_ok keywords ?_
  refine Decoded.bind_ok attributes ?_
  exact Decoded.bind_ok statusCodes rfl

end PrintRegistry
