import PrintRegistry.Proofs.Canonical

/-!
Where grammars come from. A member of an attribute has the grammar of the last record of its
own, wherever this stands among the records of its submembers. An attribute is not treated
so: it has the grammar of the record that mentions it first, even if that record is of one
of its members, and its own record no longer corrects it.
-/

namespace PrintRegistry

namespace AttributeRecord

/-- The record is of the member itself, not of a submember. -/
def isOwnOf (member : String) (r : AttributeRecord) : Bool :=
  r.path.head? == some member && r.submember.isNone

/-- A record of a member itself gives it its grammar, and one of a submember leaves the
member the grammar it has. -/
theorem grammar_enterMember (r : AttributeRecord) (spec : Option String) (m : Entity) :
    (r.enterMember spec m).1.grammar =
      if r.submember.isNone then Grammar.normalizeFor m.name (r.grammar.getD "")
      else m.grammar := by
  rw [enterMember]
  cases r.submember with
  | none => simp only [name_citingAny, Option.isNone_none, if_true]
  | some column =>
    simp only [Option.isNone_some, Bool.false_eq_true, if_false]
    split
    · split <;> exact grammar_citingAny m spec
    · exact grammar_citingAny m spec

/-- A record is entered into the member that it names, and every other member is left
alone. -/
theorem find?_members_enter (r : AttributeRecord) (spec : Option String) (e : Entity)
    (member : String) : Named.find? (r.enter spec e).1.members member =
      if r.path.head? = some member then
        some (r.enterMember spec ((Named.find? e.members member).getD
          (freshMember member r.grammar))).1
      else Named.find? e.members member := by
  rcases (r.enter_cases spec e).2 with ⟨none, same⟩ | ⟨name, declares, put⟩
  · rw [same, none]
    rfl
  · have named : nameOf (r.enterMember spec ((Named.find? e.members name).getD
        (freshMember name r.grammar))).1 = name :=
      (r.enterMember_cases spec _).1.trans (name_found name r.grammar)
    rw [put, Named.find?_put, named, declares, List.head?_cons]
    by_cases here : name = member
    · rw [if_pos here, if_pos (congrArg some here), here]
    · rw [if_neg here, if_neg fun same => here (Option.some.inj same)]

/-- The member of a name, with the grammar of the last record of its own among those
entered. -/
def GrammarOfLast (member : String) (rs : List AttributeRecord) (e : Entity) : Prop :=
  ∀ last, (rs.filter (·.isOwnOf member)).getLast? = some last →
    ∃ m, Named.find? e.members member = some m ∧
      m.grammar = Grammar.normalizeFor member (last.grammar.getD "")

theorem grammarOfLast_enter {member : String} {rs : List AttributeRecord} {e : Entity}
    (before : GrammarOfLast member rs e) (r : AttributeRecord) (spec : Option String) :
    GrammarOfLast member (rs ++ [r]) (r.enter spec e).1 := by
  intro last final
  rw [List.filter_append] at final
  rw [find?_members_enter]
  cases own : r.isOwnOf member with
  | true =>
    obtain ⟨here, itself⟩ := Bool.and_eq_true_iff.mp own
    have listed : [r].filter (·.isOwnOf member) = [r] := by simp [own]
    rw [listed, List.getLast?_concat] at final
    refine ⟨_, if_pos (eq_of_beq here), ?_⟩
    rw [grammar_enterMember, if_pos itself, name_found, Option.some.inj final]
  | false =>
    have other : [r].filter (·.isOwnOf member) = [] := by simp [own]
    rw [other, List.append_nil] at final
    obtain ⟨m, known, grammar⟩ := before last final
    by_cases here : r.path.head? = some member
    · -- The record is of a submember, and the member has had its grammar before.
      have inner : r.submember.isNone = false := by simpa [isOwnOf, here] using own
      refine ⟨_, if_pos here, ?_⟩
      rw [grammar_enterMember, inner, known]
      exact grammar
    · exact ⟨m, (if_neg here).trans known, grammar⟩

end AttributeRecord

namespace Registry

/-- A member has the grammar of the last record of its own, wherever this stands among those
of its submembers. -/
theorem member_grammar_of_last {records : List AttributeRecord} {family name member : String}
    {last : AttributeRecord}
    (own : (records.filter fun a => a.isOf family name && a.isOwnOf member).getLast? =
      some last) :
    ∃ e m, (records.foldl ingestAttribute {}).attribute? family name = some e ∧
      Named.find? e.members member = some m ∧
      m.grammar = Grammar.normalizeFor member (last.grammar.getD "") := by
  have listed : last ∈ records.filter (·.isOf family name) := by
    obtain ⟨member, isOwn⟩ := List.mem_filter.mp (List.mem_of_getLast? own)
    exact List.mem_filter.mpr ⟨member, (Bool.and_eq_true_iff.mp isOwn).1⟩
  obtain ⟨e, made, grammars⟩ := entryOf_induction AttributeRecord.toValue
    (motive := AttributeRecord.GrammarOfLast member) (List.ne_nil_of_mem listed)
    (fun _ _ _ final => nomatch final)
    fun before e r _ grammars => by
      rw [r.enter_toValue]
      exact AttributeRecord.grammarOfLast_enter grammars r _
  obtain ⟨m, known, grammar⟩ := grammars last (by
    rw [List.filter_filter]
    simpa only [Bool.and_comm] using own)
  exact ⟨e, m, (attribute?_foldl_ingestAttribute records rfl family name).trans made, known,
    grammar⟩

/-- An attribute has the grammar of the first record that mentions it, which is that of its
own record if no record of a member comes before. -/
theorem attribute_grammar_of_first {records : List AttributeRecord} {family name : String}
    {own : AttributeRecord}
    (listed : records.find? (fun a => a.isOf family name && a.member.isNone) = some own) :
    ∃ e first, (records.foldl ingestAttribute {}).attribute? family name = some e ∧
      records.find? (·.isOf family name) = some first ∧
      e.grammar = Grammar.normalizeFor name (first.grammar.getD "") ∧
      (first.member = none → e.grammar = Grammar.normalizeFor name (own.grammar.getD "")) := by
  obtain ⟨about, -⟩ := Bool.and_eq_true_iff.mp
    (List.find?_some (p := fun a : AttributeRecord => a.isOf family name && a.member.isNone) listed)
  have grammar := grammar?_foldl_ingestAttribute records (r := {}) rfl family name
  obtain ⟨first, found⟩ := Option.isSome_iff_exists.mp (List.find?_isSome.mpr
    ⟨own, List.mem_of_find?_eq_some listed, about⟩)
  rw [found, Option.map_some, grammar?, Option.map_eq_some_iff] at grammar
  obtain ⟨e, known, read⟩ := grammar
  refine ⟨e, first, known, found, read, fun isOwn => ?_⟩
  obtain ⟨here, before, after, split, others⟩ := List.find?_eq_some_iff_append.mp found
  have same : records.find? (fun a => a.isOf family name && a.member.isNone) = some first :=
    List.find?_eq_some_iff_append.mpr ⟨by simp [here, isOwn], before, after, split,
      fun a earlier => by simp [others a earlier]⟩
  rw [read, Option.some.inj (listed.symm.trans same)]

/-- An attribute and one of its members. -/
def mediaSizes : List AttributeRecord :=
  [{ family := "Job Template", name := "media-col", grammar := some "collection" },
   { family := "Job Template", name := "media-col", member := some "media-size",
     grammar := some "integer" }]

theorem attribute_grammar_of_mediaSizes :
    ∃ e, (mediaSizes.foldl ingestAttribute {}).attribute? "Job Template" "media-col" = some e ∧
      e.grammar = Grammar.normalizeFor "media-col" "collection" := by
  have listed : mediaSizes.find? (fun a => a.isOf "Job Template" "media-col" &&
      a.member.isNone) = some
        { family := "Job Template", name := "media-col", grammar := some "collection" } := rfl
  obtain ⟨e, first, known, found, -, isOwn⟩ := attribute_grammar_of_first listed
  exact ⟨e, known, isOwn (Option.some.inj found ▸ rfl)⟩

/-- With the record of the member before its own, an attribute does not have the grammar of
its own record. -/
theorem attribute_not_grammar_of_own : ¬ ∀ (records : List AttributeRecord)
    (family name : String) (own : AttributeRecord),
    records.find? (fun a => a.isOf family name && a.member.isNone) = some own →
      ∃ e, (records.foldl ingestAttribute {}).attribute? family name = some e ∧
        e.grammar = Grammar.normalizeFor name (own.grammar.getD "") := by
  intro claimed
  obtain ⟨e, known, read⟩ := claimed mediaSizes.reverse "Job Template" "media-col" _ rfl
  have texts : ((mediaSizes.reverse.foldl ingestAttribute {}).attribute? "Job Template"
      "media-col").map (·.grammar.text) = some "integer" ∧
        (Grammar.normalizeFor "media-col" "collection").text = "collection" := by
    decide
  rw [known, Option.map_some, read] at texts
  exact absurd (texts.1.symm.trans (congrArg some texts.2)) (by decide)

end Registry

end PrintRegistry
