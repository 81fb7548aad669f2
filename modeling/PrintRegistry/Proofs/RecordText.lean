import PrintRegistry.Proofs.Printing
import PrintRegistry.Proofs.Respelling

/-!
Record files. A text that spells the data of a record set, or other data for the same record set,
is read as the record set, and the text that is written for a record set is one of them.
-/

namespace PrintRegistry

open RecordShape

namespace Json

theorem hasText_string (text : String) : HasText (.string text) := trivial

theorem haveTexts_map {α : Type} {write : α → Json} (texts : ∀ a, HasText (write a))
    (as : List α) : HaveTexts (as.map write) := by
  induction as with
  | nil => trivial
  | cons a as ih => exact ⟨texts a, ih⟩

theorem hasText_written {entries : List (String × Option Json)}
    (texts : ∀ entry ∈ entries, ∀ value ∈ entry.2, HasText value) :
    HasText (.object (written entries)) := by
  change FieldsHaveTexts _
  induction entries with
  | nil => trivial
  | cons entry entries ih =>
    obtain ⟨name, value?⟩ := entry
    have ⟨here, rest⟩ := List.forall_mem_cons.mp texts
    rw [written_cons]
    cases value? with
    | none => exact ih rest
    | some value => exact ⟨here value rfl, ih rest⟩

theorem hasText_optional {α : Type} {write : α → Json} (texts : ∀ a, HasText (write a))
    (o : Option α) : ∀ value ∈ o.map write, HasText value := by
  intro value given
  obtain ⟨a, -, rfl⟩ := Option.map_eq_some_iff.mp given
  exact texts a

theorem hasText_some {j : Json} (text : HasText j) : ∀ value ∈ some j, HasText value := by
  rintro _ ⟨⟩
  exact text

end Json

open Json

theorem Citation.hasText_toJson (c : Citation) : HasText c.toJson := by
  rw [toJson_eq]
  refine hasText_written ?_
  simp only [entries, List.forall_mem_cons]
  exact ⟨hasText_some (hasText_string _), hasText_some (hasText_string _),
    hasText_optional hasText_string _, List.forall_mem_nil _⟩

theorem EnumRecord.hasText_toJson (r : EnumRecord) : HasText r.toJson := by
  rw [toJson_eq]
  refine hasText_written ?_
  simp only [entries, List.forall_mem_cons]
  exact ⟨hasText_some (hasText_string _), hasText_optional hasText_string _,
    hasText_optional hasText_string _, hasText_optional hasText_string _,
    hasText_optional Citation.hasText_toJson _, List.forall_mem_nil _⟩

theorem KeywordRecord.hasText_toJson (r : KeywordRecord) : HasText r.toJson := by
  rw [toJson_eq]
  refine hasText_written ?_
  simp only [entries, List.forall_mem_cons]
  exact ⟨hasText_some (hasText_string _), hasText_optional hasText_string _,
    hasText_optional hasText_string _, hasText_optional hasText_string _,
    hasText_optional Citation.hasText_toJson _, List.forall_mem_nil _⟩

theorem AttributeRecord.hasText_toJson (r : AttributeRecord) : HasText r.toJson := by
  rw [toJson_eq]
  refine hasText_written ?_
  simp only [entries, List.forall_mem_cons]
  exact ⟨hasText_some (hasText_string _), hasText_some (hasText_string _),
    hasText_optional hasText_string _,
    hasText_optional hasText_string _, hasText_optional hasText_string _,
    hasText_optional Citation.hasText_toJson _, List.forall_mem_nil _⟩

theorem StatusRecord.hasText_toJson (r : StatusRecord) : HasText r.toJson := by
  rw [toJson_eq]
  refine hasText_written ?_
  simp only [entries, List.forall_mem_cons]
  exact ⟨hasText_some (hasText_string _), hasText_some (hasText_string _),
    hasText_optional Citation.hasText_toJson _, List.forall_mem_nil _⟩

namespace Records

theorem hasText_toJson (r : Records) : HasText r.toJson := by
  rw [toJson_eq]
  refine hasText_written ?_
  simp only [entries, List.forall_mem_cons]
  exact ⟨hasText_optional hasText_string _,
    hasText_some (haveTexts_map EnumRecord.hasText_toJson _),
    hasText_some (haveTexts_map KeywordRecord.hasText_toJson _),
    hasText_some (haveTexts_map AttributeRecord.hasText_toJson _),
    hasText_some (haveTexts_map StatusRecord.hasText_toJson _), List.forall_mem_nil _⟩

/-- What is read from a value is read from all texts that spell it. -/
theorem ofText_of_spells {text : String} {j : Json} {r : Records}
    (spelled : Spells text.toList (.value j)) (read : ofJson j = .ok r) : ofText text = .ok r := by
  obtain ⟨after, found, blanks⟩ := Json.ofText_of_spells spelled
  rw [ofText, found]
  refine Decoded.bind_ok read ?_
  rw [Option.getD_some, blanks]
  rfl

/-- What is written for a record set is read back. -/
theorem ofText_pretty (r : Records) : ofText r.toJson.pretty = .ok r :=
  ofText_of_spells (spells_pretty r.hasText_toJson) r.ofJson_toJson

/-- The data written for a record set are read back as the record set from every spelling of
them, be it as data or from a text. -/
theorem respelled_read_back (r : Records) (j : Json) (respelled : Respelled format r.toJson j) :
    ofJson j = .ok r ∧ ∀ text : String, Spells text.toList (.value j) → ofText text = .ok r := by
  have read := ofJson_of_respelled respelled
  exact ⟨read, fun _ spelled => ofText_of_spells spelled read⟩

/-- One member attribute, with the document that defines it. -/
def mediaSize : Records where
  attributes :=
    [{ family := "Job Template", name := "media-col", member := some "media-size",
       citation := some { kind := .rfc, data := "rfc8011" } }]

/-- Other data for the same attribute: in another order and under other names, with a null for
what is absent and with fields that are not known. -/
def mediaSizeData : Json :=
  .object
    [("updated", .null),
     ("note", .object [("draft", .bool true), ("pages", .array [.null])]),
     ("attributes", .array [.object
       [("submember", .null),
        ("xref", .object [("text", .null), ("type", .string "rfc"), ("data", .string "rfc8011")]),
        ("member", .string "media-size"),
        ("family", .string "Job Template"),
        ("name", .string "media-col")]]),
     ("status_codes", .array []),
     ("enums", .array []),
     ("keywords", .array [])]

theorem mediaSizeData_respelled : Respelled format mediaSize.toJson mediaSizeData := by
  have citation : Respelled Citation.format
      (.object [("type", .string "rfc"), ("data", .string "rfc8011")])
      (.object [("text", .null), ("type", .string "rfc"), ("data", .string "rfc8011")]) :=
    .nulled (.tail _ (.tail _ (.head _))) rfl (.head _) (by decide)
  have record : Respelled AttributeRecord.format
      (.object
        [("collection", .string "Job Template"), ("name", .string "media-col"),
         ("member_attribute", .string "media-size"),
         ("xref", .object [("type", .string "rfc"), ("data", .string "rfc8011")])])
      (.object
        [("submember", .null),
         ("xref", .object [("text", .null), ("type", .string "rfc"), ("data", .string "rfc8011")]),
         ("member", .string "media-size"),
         ("family", .string "Job Template"),
         ("name", .string "media-col")]) := by
    refine .trans (.renamed (.head _) (.head _) (.tail _ (.head _))) ?_
    refine .trans (.reordered (.trans (.cons _ (.swap _ _ _)) (.swap _ _ _))) ?_
    refine .trans (.renamed (.tail _ (.tail _ (.head _))) (.head _) (.tail _ (.head _))) ?_
    refine .trans (.reordered (.trans (.cons _ (.cons _ (.swap _ _ _)))
      (.trans (.cons _ (.swap _ _ _)) (.swap _ _ _)))) ?_
    refine .trans (.nested (.tail _ (.tail _ (.tail _ (.tail _ (.tail _ (.head _)))))) (.head _)
      citation) ?_
    exact .nulled (.tail _ (.tail _ (.tail _ (.head _)))) rfl (.tail _ (.head _)) (by decide)
  refine .trans (.reordered (.trans (.cons _ (.swap _ _ _)) (.swap _ _ _))) ?_
  refine .trans (.nested (.tail _ (.tail _ (.tail _ (.head _)))) (.head _)
    (.items (.cons record .nil))) ?_
  refine .trans (.reordered (.cons _ (.trans (.cons _ (.swap _ _ _)) (.swap _ _ _)))) ?_
  exact .trans (.extended (by decide) rfl) (.nulled (.head _) rfl (.head _) (by decide))

/-- What is read does not depend on the spelling. -/
theorem mediaSize_read_back : ofJson mediaSizeData = .ok mediaSize ∧
    ofText mediaSizeData.pretty = .ok mediaSize := by
  have ⟨data, text⟩ := respelled_read_back mediaSize mediaSizeData mediaSizeData_respelled
  have texts : HasText mediaSizeData := by
    simp only [mediaSizeData, HasText, HaveTexts, FieldsHaveTexts, and_self]
  exact ⟨data, text _ (spells_pretty texts)⟩

end Records

end PrintRegistry
