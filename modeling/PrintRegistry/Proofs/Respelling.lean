import PrintRegistry.Proofs.Decoding

/-!
Records in other spellings. From the data written for a record to other data for the same record
lead single steps: fields change places, a field takes another of its names, a field that is
absent is written as null, one that is not known is added, or one of these happens inside the
value of a field. No step changes what is read, so that every spelling of the data of a record is
read back as the record itself. Arrays in place of objects, which are read as well, are left out:
nothing is ever written that way.
-/

namespace PrintRegistry

/-- A field as it is declared: its names, whether it may be absent, and the spellings that a
value of it has. -/
structure FieldFormat where
  names : List String
  mayBeAbsent : Bool := false
  spelling : Json → Json → Prop := Eq

/-- Data of a record in another spelling. Since fields may change places, the other steps are
told for the first field. -/
inductive Respelled (format : List FieldFormat) : Json → Json → Prop where
  | refl (j : Json) : Respelled format j j
  | trans {j k l : Json} : Respelled format j k → Respelled format k l → Respelled format j l
  | reordered {fields others : List (String × Json)} :
      fields.Perm others → Respelled format (.object fields) (.object others)
  | renamed {fields : List (String × Json)} {field : FieldFormat} {name other : String}
      {value : Json} : field ∈ format → name ∈ field.names → other ∈ field.names →
      Respelled format (.object ((name, value) :: fields)) (.object ((other, value) :: fields))
  | nulled {fields : List (String × Json)} {field : FieldFormat} {name : String} :
      field ∈ format → field.mayBeAbsent = true → name ∈ field.names →
      (∀ given ∈ fields, given.1 ∉ field.names) →
      Respelled format (.object fields) (.object ((name, .null) :: fields))
  | extended {fields : List (String × Json)} {name : String} {value : Json} :
      (∀ field ∈ format, name ∉ field.names) → value.passOver = .ok () →
      Respelled format (.object fields) (.object ((name, value) :: fields))
  | nested {fields : List (String × Json)} {field : FieldFormat} {name : String}
      {value other : Json} : field ∈ format → name ∈ field.names → field.spelling value other →
      Respelled format (.object ((name, value) :: fields)) (.object ((name, other) :: fields))

/-- A list with its items in other spellings. -/
inductive RespelledItems (spelling : Json → Json → Prop) : Json → Json → Prop where
  | items {items others : List Json} :
      List.Forall₂ spelling items others → RespelledItems spelling (.array items) (.array others)

/-! ### What records are declared as -/

def Citation.format : List FieldFormat :=
  [{ names := ["type"] }, { names := ["data"] }, { names := ["text"], mayBeAbsent := true }]

/-- The field for the citation of a record. -/
def FieldFormat.citation : FieldFormat where
  names := ["xref"]
  mayBeAbsent := true
  spelling := Respelled Citation.format

def EnumRecord.format : List FieldFormat :=
  [{ names := ["attribute", "family"] }, { names := ["name"], mayBeAbsent := true },
    { names := ["value"], mayBeAbsent := true }, { names := ["syntax"], mayBeAbsent := true },
    .citation]

def KeywordRecord.format : List FieldFormat :=
  [{ names := ["attribute", "family"] }, { names := ["value"], mayBeAbsent := true },
    { names := ["syntax"], mayBeAbsent := true }, { names := ["type"], mayBeAbsent := true },
    .citation]

def AttributeRecord.format : List FieldFormat :=
  [{ names := ["collection", "family"] }, { names := ["name"] },
    { names := ["member_attribute", "member"], mayBeAbsent := true },
    { names := ["sub_member_attribute", "submember", "sub-member_attribute"],
      mayBeAbsent := true },
    { names := ["syntax"], mayBeAbsent := true }, .citation]

def StatusRecord.format : List FieldFormat :=
  [{ names := ["name"] }, { names := ["value"] }, .citation]

/-- The field for the records of one kind. -/
def FieldFormat.records (name : String) (format : List FieldFormat) : FieldFormat where
  names := [name]
  spelling := RespelledItems (Respelled format)

def Records.format : List FieldFormat :=
  [{ names := ["updated"], mayBeAbsent := true }, .records "enums" EnumRecord.format,
    .records "keywords" KeywordRecord.format, .records "attributes" AttributeRecord.format,
    .records "status_codes" StatusRecord.format]

/-! ### Reading is the same for all spellings -/

section Keeping

variable {α β : Type} {spelling : Json → Json → Prop} {read : Json → Decoded α}
  {shape : RecordShape} {format : List FieldFormat} {field : FieldFormat} {index : Nat}

/-- Whatever is read from a value is also read from its other spellings. -/
def Keeps (spelling : Json → Json → Prop) (read : Json → Decoded α) : Prop :=
  ∀ ⦃j k : Json⦄ ⦃a : α⦄, spelling j k → read j = .ok a → read k = .ok a

/-- Null is no other spelling of a value, nor is a value one of null. -/
def NullApart (spelling : Json → Json → Prop) : Prop :=
  ∀ ⦃j k : Json⦄, spelling j k → (j = .null ↔ k = .null)

theorem nullApart_eq : NullApart Eq := by
  rintro j - rfl
  exact Iff.rfl

theorem nullApart_respelled (format : List FieldFormat) : NullApart (Respelled format) := by
  intro j k respelled
  induction respelled with
  | refl j => exact Iff.rfl
  | trans _ _ first second => exact first.trans second
  | _ => exact iff_of_false nofun nofun

theorem keeps_eq : Keeps Eq read := by
  intro j k a same given
  rwa [← same]

theorem asOptional_eq {j : Json} (known : j ≠ .null) :
    Json.asOptional read j = (read j).map some := by
  cases j with
  | null => exact absurd rfl known
  | _ => rfl

theorem keeps_asOptional (apart : NullApart spelling) (keeps : Keeps spelling read) :
    Keeps spelling (Json.asOptional read) := by
  intro j k a respelled given
  by_cases null : j = .null
  · rwa [(apart respelled).mp null, ← null]
  · rw [asOptional_eq null] at given
    rw [asOptional_eq (mt (apart respelled).mpr null)]
    obtain ⟨b, first, rfl⟩ := Decoded.map_eq_ok.mp given
    exact Decoded.map_eq_ok.mpr ⟨b, keeps respelled first, rfl⟩

theorem keeps_asList (keeps : Keeps spelling read) :
    Keeps (RespelledItems spelling) (Json.asList read) := by
  rintro - - as ⟨respelled⟩ given
  rw [Json.asList, Decoded.mapM_eq_ok] at given ⊢
  induction respelled generalizing as with
  | nil => exact given
  | cons head _ ih =>
    cases given with
    | cons first others => exact .cons (keeps head first) (ih others)

/-- How the value in the slot of a field changes from one spelling to another. -/
inductive FieldFormat.Refilled (field : FieldFormat) : Option Json → Option Json → Prop where
  | null : field.mayBeAbsent = true → Refilled field none (some .null)
  | value {j k : Json} : field.spelling j k → Refilled field (some j) (some k)

/-- Whatever is made of some slots is also made of the slots of other spellings. -/
def KeepsSlots (format : List FieldFormat) (make : Slots → Decoded α) : Prop :=
  ∀ ⦃slots : Slots⦄ ⦃index : Nat⦄ ⦃field : FieldFormat⦄ ⦃held other : Option Json⦄ ⦃a : α⦄,
    format[index]? = some field → slots[index]? = some held → field.Refilled held other →
    make slots = .ok a → make (slots.set index other) = .ok a

theorem keepsSlots_pure (a : α) : KeepsSlots format fun _ => pure a :=
  fun _ _ _ _ _ _ _ _ _ made => made

theorem keepsSlots_bind {make : Slots → Decoded α} {next : α → Slots → Decoded β}
    (first : KeepsSlots format make) (rest : ∀ a, KeepsSlots format (next a)) :
    KeepsSlots format fun slots => make slots >>= fun a => next a slots := by
  intro slots index field held other b declared taken refilled made
  obtain ⟨a, here, made⟩ := Decoded.bind_eq_ok.mp made
  exact Decoded.bind_ok (first declared taken refilled here)
    (rest a declared taken refilled made)

/-- What is made of one slot alone is kept if it is kept where that slot is refilled. -/
theorem keepsSlots_of_slot {make : Slots → Decoded α} (declared : format[index]? = some field)
    (alone : ∀ {slots others : Slots}, slots[index]? = others[index]? → make slots = make others)
    (keeps : ∀ {slots others : Slots} {held other : Option Json} {a : α},
      slots[index]? = some held → others[index]? = some other → field.Refilled held other →
      make slots = .ok a → make others = .ok a) : KeepsSlots format make := by
  intro slots place field' held other a declared' taken refilled made
  by_cases same : place = index
  · subst same
    obtain rfl := Option.some.inj (declared.symm.trans declared')
    have inside := (List.getElem?_eq_some_iff.mp taken).1
    exact keeps taken (List.getElem?_set_self inside) refilled made
  · rwa [← alone (List.getElem?_set_ne same).symm]

theorem keepsSlots_required (declared : format[index]? = some field)
    (keeps : Keeps field.spelling read) :
    KeepsSlots format fun slots => slots.required index read := by
  refine keepsSlots_of_slot declared (fun same => ?_) fun before after refilled made => ?_
  · rw [Slots.required, Slots.required, same]
  · rw [Slots.required, before] at made
    rw [Slots.required, after]
    cases refilled with
    | null => cases made
    | value respelled => exact keeps respelled made

theorem keepsSlots_optional (declared : format[index]? = some field)
    (apart : NullApart field.spelling) (keeps : Keeps field.spelling read) :
    KeepsSlots format fun slots => slots.optional index read := by
  refine keepsSlots_of_slot declared (fun same => ?_) fun before after refilled made => ?_
  · rw [Slots.optional, Slots.optional, same]
  · rw [Slots.optional, before] at made
    rw [Slots.optional, after]
    cases refilled with
    | null => exact made
    | value respelled => exact keeps_asOptional apart keeps respelled made

theorem keepsSlots_list (declared : format[index]? = some field)
    (present : field.mayBeAbsent = false) (keeps : Keeps field.spelling (Json.asList read)) :
    KeepsSlots format fun slots => slots.list index read := by
  refine keepsSlots_of_slot declared (fun same => ?_) fun before after refilled made => ?_
  · rw [Slots.list, Slots.list, same]
  · rw [Slots.list, before] at made
    rw [Slots.list, after]
    cases refilled with
    | null absent => cases present.symm.trans absent
    | value respelled => exact keeps respelled made

/-- The shape of a field follows its declaration: the names are the same, a value is accepted in
all spellings or in none, and null for an absent one. -/
structure FieldShape.Follows (shape : FieldShape) (field : FieldFormat) : Prop where
  names : shape.names = field.names
  keeps : Keeps field.spelling shape.check
  null : field.mayBeAbsent = true → shape.check .null = .ok ()

theorem follows_of {names : List String} (keeps : Keeps spelling read) :
    (FieldShape.of names read).Follows { names, spelling } where
  names := rfl
  keeps j k _ respelled given := by
    obtain ⟨a, reads⟩ := FieldShape.check_of.mp given
    exact FieldShape.check_of.mpr ⟨a, keeps respelled reads⟩
  null := nofun

theorem follows_optional {names : List String} (apart : NullApart spelling)
    (keeps : Keeps spelling read) : (FieldShape.of names (Json.asOptional read)).Follows
      { names, mayBeAbsent := true, spelling } where
  names := rfl
  keeps := (follows_of (keeps_asOptional apart keeps)).keeps
  null _ := rfl

namespace RecordShape

theorem exists_follows (follows : List.Forall₂ FieldShape.Follows shape.fields format)
    (declared : field ∈ format) : ∃ (index : Nat) (shaped : FieldShape),
      format[index]? = some field ∧ shape.fields[index]? = some shaped ∧ shaped.Follows field := by
  obtain ⟨index, inside, rfl⟩ := List.getElem_of_mem declared
  have inside' : index < shape.fields.length := follows.length_eq.symm ▸ inside
  exact ⟨index, shape.fields[index], List.getElem?_eq_getElem inside,
    List.getElem?_eq_getElem inside', (List.forall₂_iff_get.mp follows).2 index inside' inside⟩

theorem indexOf?_eq_none (follows : List.Forall₂ FieldShape.Follows shape.fields format)
    {name : String} (unknown : ∀ field ∈ format, name ∉ field.names) :
    shape.indexOf? name = none := by
  refine indexOf?_eq_none_iff.mpr fun shaped listed named => ?_
  obtain ⟨index, inside, rfl⟩ := List.getElem_of_mem listed
  have inside' : index < format.length := follows.length_eq ▸ inside
  have same := (List.forall₂_iff_get.mp follows).2 index inside inside'
  exact unknown _ (List.getElem_mem inside') (same.names ▸ named)

/-- A record whose shape follows its declaration is read in the same way from all spellings, if
what is made of its slots is. -/
theorem keeps_slots {make : Slots → Decoded α} (unambiguous : shape.IsUnambiguous)
    (follows : List.Forall₂ FieldShape.Follows shape.fields format)
    (keeps : KeepsSlots format make) :
    Keeps (Respelled format) fun j => shape.slots j >>= make := by
  intro j k a respelled given
  have own : ∀ {index : Nat} {shaped : FieldShape} {field : FieldFormat} {name : String},
      shape.fields[index]? = some shaped → shaped.Follows field → name ∈ field.names →
      shape.indexOf? name = some index :=
    fun declared same named => indexOf?_eq_some unambiguous declared (same.names ▸ named)
  induction respelled with
  | refl j => exact given
  | trans _ _ first second => exact second (first given)
  | reordered permuted =>
    obtain ⟨slots, taken, made⟩ := Decoded.bind_eq_ok.mp given
    rw [slots_object] at taken
    refine Decoded.bind_ok ?_ made
    rw [slots_object]
    exact takeFields_perm permuted taken
  | renamed declared named other =>
    obtain ⟨index, shaped, -, shapes, same⟩ := exists_follows follows declared
    obtain ⟨slots, taken, made⟩ := Decoded.bind_eq_ok.mp given
    have taken := (slots_cons_eq_ok (own shapes same named) shapes).mp taken
    exact Decoded.bind_ok ((slots_cons_eq_ok (own shapes same other) shapes).mpr taken) made
  | nulled declared absent named without =>
    obtain ⟨index, shaped, formats, shapes, same⟩ := exists_follows follows declared
    obtain ⟨slots, taken, made⟩ := Decoded.bind_eq_ok.mp given
    have apart := fun given listed known =>
      without given listed (same.names ▸ mem_names_of_indexOf? known shapes)
    have free := free_of_absent shapes apart taken
    have filled := (slots_cons_eq_ok (own shapes same named) shapes).mpr
      ⟨apart, same.null absent, slots, taken, free, rfl⟩
    exact Decoded.bind_ok filled (keeps formats free (.null absent) made)
  | extended unknown passed =>
    dsimp only at given ⊢
    rwa [slots_unknown (indexOf?_eq_none follows unknown) passed]
  | nested declared named respelled =>
    obtain ⟨index, shaped, formats, shapes, same⟩ := exists_follows follows declared
    obtain ⟨slots, taken, made⟩ := Decoded.bind_eq_ok.mp given
    obtain ⟨apart, checked, rest, others, free, rfl⟩ :=
      (slots_cons_eq_ok (own shapes same named) shapes).mp taken
    have inside := (List.getElem?_eq_some_iff.mp free).1
    have made := keeps formats (List.getElem?_set_self inside) (.value respelled) made
    rw [List.set_set] at made
    have filled := (slots_cons_eq_ok (own shapes same named) shapes).mpr
      ⟨apart, same.keeps respelled checked, rest, others, free, rfl⟩
    exact Decoded.bind_ok filled made

end RecordShape

end Keeping

open RecordShape

theorem follows_text (names : List String) :
    (FieldShape.of names Json.asText).Follows { names } :=
  follows_of keeps_eq

theorem follows_optionalText (names : List String) :
    (FieldShape.optionalText names).Follows { names, mayBeAbsent := true } :=
  follows_optional nullApart_eq keeps_eq

theorem Citation.keeps_ofJson : Keeps (Respelled format) ofJson := by
  have follows : List.Forall₂ FieldShape.Follows shape.fields format :=
    .cons (follows_of keeps_eq) (.cons (follows_text _) (.cons (follows_optionalText _) .nil))
  exact keeps_slots (by decide) follows <|
    keepsSlots_bind (keepsSlots_required rfl keeps_eq) fun _ =>
    keepsSlots_bind (keepsSlots_required rfl keeps_eq) fun _ =>
    keepsSlots_bind (keepsSlots_optional rfl nullApart_eq keeps_eq) fun _ =>
    keepsSlots_pure _

theorem follows_citation : FieldShape.citation.Follows .citation :=
  follows_optional (nullApart_respelled _) Citation.keeps_ofJson

theorem keepsSlots_citation {format : List FieldFormat} {index : Nat}
    (declared : format[index]? = some .citation) :
    KeepsSlots format fun slots => slots.optional index Citation.ofJson :=
  keepsSlots_optional declared (nullApart_respelled _) Citation.keeps_ofJson

theorem EnumRecord.keeps_ofJson : Keeps (Respelled format) ofJson := by
  have follows : List.Forall₂ FieldShape.Follows shape.fields format :=
    .cons (follows_text _) (.cons (follows_optionalText _) (.cons (follows_optionalText _)
      (.cons (follows_optionalText _) (.cons follows_citation .nil))))
  exact keeps_slots (by decide) follows <|
    keepsSlots_bind (keepsSlots_required rfl keeps_eq) fun _ =>
    keepsSlots_bind (keepsSlots_optional rfl nullApart_eq keeps_eq) fun _ =>
    keepsSlots_bind (keepsSlots_optional rfl nullApart_eq keeps_eq) fun _ =>
    keepsSlots_bind (keepsSlots_optional rfl nullApart_eq keeps_eq) fun _ =>
    keepsSlots_bind (keepsSlots_citation rfl) fun _ => keepsSlots_pure _

theorem KeywordRecord.keeps_ofJson : Keeps (Respelled format) ofJson := by
  have follows : List.Forall₂ FieldShape.Follows shape.fields format :=
    .cons (follows_text _) (.cons (follows_optionalText _) (.cons (follows_optionalText _)
      (.cons (follows_optionalText _) (.cons follows_citation .nil))))
  exact keeps_slots (by decide) follows <|
    keepsSlots_bind (keepsSlots_required rfl keeps_eq) fun _ =>
    keepsSlots_bind (keepsSlots_optional rfl nullApart_eq keeps_eq) fun _ =>
    keepsSlots_bind (keepsSlots_optional rfl nullApart_eq keeps_eq) fun _ =>
    keepsSlots_bind (keepsSlots_optional rfl nullApart_eq keeps_eq) fun _ =>
    keepsSlots_bind (keepsSlots_citation rfl) fun _ => keepsSlots_pure _

theorem AttributeRecord.keeps_ofJson : Keeps (Respelled format) ofJson := by
  have follows : List.Forall₂ FieldShape.Follows shape.fields format :=
    .cons (follows_text _) (.cons (follows_text _) (.cons (follows_optionalText _)
      (.cons (follows_optionalText _) (.cons (follows_optionalText _)
        (.cons follows_citation .nil)))))
  exact keeps_slots (by decide) follows <|
    keepsSlots_bind (keepsSlots_required rfl keeps_eq) fun _ =>
    keepsSlots_bind (keepsSlots_required rfl keeps_eq) fun _ =>
    keepsSlots_bind (keepsSlots_optional rfl nullApart_eq keeps_eq) fun _ =>
    keepsSlots_bind (keepsSlots_optional rfl nullApart_eq keeps_eq) fun _ =>
    keepsSlots_bind (keepsSlots_optional rfl nullApart_eq keeps_eq) fun _ =>
    keepsSlots_bind (keepsSlots_citation rfl) fun _ => keepsSlots_pure _

theorem StatusRecord.keeps_ofJson : Keeps (Respelled format) ofJson := by
  have follows : List.Forall₂ FieldShape.Follows shape.fields format :=
    .cons (follows_text _) (.cons (follows_text _) (.cons follows_citation .nil))
  exact keeps_slots (by decide) follows <|
    keepsSlots_bind (keepsSlots_required rfl keeps_eq) fun _ =>
    keepsSlots_bind (keepsSlots_required rfl keeps_eq) fun _ =>
    keepsSlots_bind (keepsSlots_citation rfl) fun _ => keepsSlots_pure _

theorem Records.keeps_ofJson : Keeps (Respelled format) ofJson := by
  have enums := keeps_asList EnumRecord.keeps_ofJson
  have keywords := keeps_asList KeywordRecord.keeps_ofJson
  have attributes := keeps_asList AttributeRecord.keeps_ofJson
  have statusCodes := keeps_asList StatusRecord.keeps_ofJson
  have follows : List.Forall₂ FieldShape.Follows shape.fields format :=
    .cons (follows_optionalText _) (.cons (follows_of enums) (.cons (follows_of keywords)
      (.cons (follows_of attributes) (.cons (follows_of statusCodes) .nil))))
  exact keeps_slots (by decide) follows <|
    keepsSlots_bind (keepsSlots_optional rfl nullApart_eq keeps_eq) fun _ =>
    keepsSlots_bind (keepsSlots_list rfl rfl enums) fun _ =>
    keepsSlots_bind (keepsSlots_list rfl rfl keywords) fun _ =>
    keepsSlots_bind (keepsSlots_list rfl rfl attributes) fun _ =>
    keepsSlots_bind (keepsSlots_list rfl rfl statusCodes) fun _ => keepsSlots_pure _

/-- Every spelling of the data of a record set is read back as the record set. -/
theorem Records.ofJson_of_respelled {r : Records} {j : Json}
    (respelled : Respelled format r.toJson j) : ofJson j = .ok r :=
  keeps_ofJson respelled r.ofJson_toJson

end PrintRegistry
