import Mathlib.Data.List.Infix
import PrintRegistry.Proofs.Phrase
import PrintRegistry.Proofs.StockPhrase
import PrintRegistry.Proofs.Wrapping

/-!
What phrases refer to. Every wording of a reference, in every wrapper, is read by the stock
phrase meant for it, and by none of those that it is held against before.
-/

namespace PrintRegistry.Reference

open Text (Template)

section Wordings

/-- A name of small letters and hyphens. -/
structure IsName (name : String) : Prop where
  some : name ≠ ""
  small : ∀ c ∈ name.toList, isNameChar c = true
  spelt : IsSpelt name.toList

/-- A family title of letters, spaces and hyphens that no name can be: it has a space or a
capital. -/
structure IsTitle (family : String) : Prop where
  letters : ∀ c ∈ family.toList, (isTitleChar c || c == '-') = true
  begins : family.toList.head? ≠ Option.some ' '
  ends : family.toList.getLast? ≠ Option.some ' '
  telling : ∃ c ∈ family.toList, c = ' ' ∨ 'A' ≤ c ∧ c ≤ 'Z'
  spelt : IsSpelt family.toList

/-- The wordings of references, with an article before them or without one, and what they
refer to. -/
inductive Wording (article : Bool) : String → Reference → Prop where
  | values {name ending : String} (named : IsName name) (ended : ending ∈ valueEndings) :
      Wording article ("\"" ++ name ++ "\"" ++ ending) (.byName name)
  | keywordName {name : String} (named : IsName name) :
      Wording article ("\"" ++ name ++ "\" attribute keyword name") (.byName name)
  | members {quote name ending : String} (quoted : quote = "\"" ∨ quote = "" ∧ article = true)
      (named : IsName name) (ended : ending ∈ memberEndings) :
      Wording article (quote ++ name ++ quote ++ ending) (.byMembers name)
  | name {name : String} (named : IsName name) :
      Wording article ("\"" ++ name ++ "\"") (.byName name)
  | nameOfFamily {name family : String} (named : IsName name) (line : '\n' ∉ family.toList) :
      Wording article ("\"" ++ name ++ "\" " ++ family ++ " attribute") (.byName name)
  | sameMembers {name family : String} (named : IsName name) (line : '\n' ∉ family.toList)
      (spelt : IsSpelt family.toList) :
      Wording article ("Member attributes are the same as the \"" ++ name ++ "\" " ++ family ++
        " attribute") (.byAlias name (Text.trimmed family))
  | keywordNameOfFamily {family : String} (introduced : article = true) (titled : IsTitle family) :
      Wording article (family ++ " attribute keyword name") (.byGroup (familyTitle family))
  | family {family : String} (introduced : article = true) (titled : IsTitle family)
      (words : ' ' ∈ family.toList) (letters : '-' ∉ family.toList) :
      Wording article (family ++ " attribute") (.byGroup family)

variable {w : Wrapper} {name family : String}

theorem IsName.chars (h : IsName name) : name.toList ≠ [] := by
  intro none
  exact h.some (String.toList_eq_nil_iff.mp none)

/-- A sound phrase refers to what the first stock phrase says that reads it. -/
theorem ofPhrase?_of_stock {phrase : String} {cs e : List Char} {later : List StockPhrase}
    {p : StockPhrase} {ref : Reference} (earlier : List StockPhrase) (text : phrase.toList = cs)
    (begins : Begins w.hasArticle cs) (sound : IsSound e) (ends : e <:+ cs) (spelt : IsSpelt cs)
    (order : stockPhrases = earlier ++ p :: later) (none : ∀ q ∈ earlier, q.read? cs = Option.none)
    (found : p.read? cs = some ref) : ofPhrase? (w.wrap phrase) = some ref := by
  subst text
  have same := respelt_eq spelt
  rw [ofPhrase?_wrap_of_ending w begins sound ends (same.symm ▸ ends), same, order]
  exact List.findSome?_eq_some_iff.mpr ⟨earlier, p, later, rfl, found, none⟩

theorem begins_quote (article : Bool) (cs : List Char) : Begins article ('"' :: cs) :=
  ⟨'"', cs, rfl, by decide, fun _ => Or.inl rfl⟩

theorem begins_article {article : Bool} {cs : List Char} (introduced : article = true)
    (some : cs ≠ []) (full : cs.head? ≠ Option.some ' ') (tail : List Char) :
    Begins article (cs ++ tail) := by
  obtain ⟨c, rest, rfl⟩ := List.exists_cons_of_ne_nil some
  refine ⟨c, rest ++ tail, rfl, ?_, fun bare => ?_⟩
  · rintro rfl
    exact full rfl
  · rw [introduced] at bare
    cases bare

theorem isSpelt_quoted {name tail : List Char} (left : IsSpelt name) (right : IsSpelt tail) :
    IsSpelt ('"' :: (name ++ '"' :: tail)) := by
  rw [isSpelt_cons rfl, isSpelt_append_cons rfl]
  exact ⟨left, right⟩

theorem suffix_quoted (name tail : List Char) : '"' :: tail <:+ '"' :: (name ++ '"' :: tail) :=
  (List.suffix_append name _).trans (List.suffix_cons _ _)

theorem ofPhrase?_values {ending : String} (named : IsName name) (ended : ending ∈ valueEndings) :
    ofPhrase? (w.wrap ("\"" ++ name ++ "\"" ++ ending)) = some (.byName name) := by
  have endings : ∀ e ∈ valueEndings, IsSound ('"' :: e.toList) ∧ 'j' ∉ e.toList := by decide
  obtain ⟨sound, absent⟩ := endings ending ended
  have read := read?_keywordValues (Or.inr rfl) named.chars named.small ended
  rw [String.ofList_toList] at read
  have text : ("\"" ++ name ++ "\"" ++ ending).toList =
      '"' :: (name.toList ++ '"' :: ending.toList) := by
    simp [String.toList_append]
  exact ofPhrase?_of_stock [] text (begins_quote _ _) sound (suffix_quoted _ _)
    (isSpelt_quoted named.spelt (isSpelt_of_notMem absent)) rfl (List.forall_mem_nil _) read

theorem ofPhrase?_keywordName (named : IsName name) :
    ofPhrase? (w.wrap ("\"" ++ name ++ "\" attribute keyword name")) = some (.byName name) := by
  have text : ("\"" ++ name ++ "\" attribute keyword name").toList =
      '"' :: (name.toList ++ '"' :: " attribute keyword name".toList) := by
    simp [String.toList_append]
  have sound : IsSound ('"' :: " attribute keyword name".toList) := by decide
  have spelt : IsSpelt " attribute keyword name".toList := isSpelt_of_notMem (by decide)
  have ends := suffix_quoted name.toList " attribute keyword name".toList
  have read := read?_attributeKeywordName (Or.inr rfl) named.chars named.small
  rw [String.ofList_toList] at read
  have none := read?_keywordValues_of_foreign ends (by decide)
  exact ofPhrase?_of_stock [keywordValues] text (begins_quote _ _) sound ends
    (isSpelt_quoted named.spelt spelt) rfl (List.forall_mem_singleton.mpr none) read

theorem ofPhrase?_members {quote ending : String}
    (quoted : quote = "\"" ∨ quote = "" ∧ w.hasArticle = true) (named : IsName name)
    (ended : ending ∈ memberEndings) :
    ofPhrase? (w.wrap (quote ++ name ++ quote ++ ending)) = some (.byMembers name) := by
  have endings : ∀ e ∈ memberEndings, IsSound e.toList ∧ 'j' ∉ e.toList ∧
      2 < e.toList.countP isForeign ∧ e.toList.head? = some ' ' ∧
      ∀ p ∈ [attributeKeywordName, familyKeywordName], p.anywhere = false ∧
        ∀ o ∈ p.template.endings, Text.Apart o.toList e.toList := by decide
  obtain ⟨sound, absent, many, spaced, apart⟩ := endings ending ended
  have spelt := isSpelt_of_notMem absent
  have read :=
    read?_memberAttributeName (quoted.symm.imp_left And.left) named.chars named.small ended
  rw [String.ofList_toList] at read
  have text : (quote ++ name ++ quote ++ ending).toList =
      quote.toList ++ (name.toList ++ (quote.toList ++ ending.toList)) := by
    simp [String.toList_append]
  have ends : ending.toList <:+ quote.toList ++ (name.toList ++ (quote.toList ++ ending.toList)) :=
    ((List.suffix_append ..).trans (List.suffix_append ..)).trans (List.suffix_append ..)
  have none : ∀ q ∈ [keywordValues, attributeKeywordName, familyKeywordName],
      q.read? (quote.toList ++ (name.toList ++ (quote.toList ++ ending.toList))) = none :=
    List.forall_mem_cons.mpr ⟨read?_keywordValues_of_foreign ends many, read?_of_ending ends apart⟩
  refine ofPhrase?_of_stock _ text ?_ sound ends ?_ rfl none read
  · rcases quoted with rfl | ⟨rfl, introduced⟩
    · exact begins_quote _ _
    · refine begins_article introduced named.chars ?_ _
      intro first
      have small := named.small ' ' (List.mem_of_head? first)
      cases small
  · rcases quoted with rfl | ⟨rfl, introduced⟩
    · exact isSpelt_quoted named.spelt spelt
    · obtain ⟨rest, whole⟩ := List.head?_eq_some_iff.mp spaced
      rw [whole, isSpelt_cons rfl] at spelt
      rw [whole]
      exact (isSpelt_append_cons rfl name.toList rest).mpr ⟨named.spelt, spelt⟩

theorem ofPhrase?_name (named : IsName name) :
    ofPhrase? (w.wrap ("\"" ++ name ++ "\"")) = some (.byName name) := by
  have text : ("\"" ++ name ++ "\"").toList = '"' :: (name.toList ++ ['"']) := by
    simp [String.toList_append]
  have ends : ['"'] <:+ '"' :: (name.toList ++ ['"']) := suffix_quoted name.toList []
  have spelt : IsSpelt ('"' :: (name.toList ++ ['"'])) := isSpelt_quoted named.spelt (by decide)
  -- A quotation mark ends slips too, but they have spaces.
  have solid : ' ' ∉ '"' :: (name.toList ++ ['"']) := by
    have outside : ' ' ∉ name.toList := by
      intro listed
      have small := named.small ' ' listed
      cases small
    simp [outside]
  have spaced : (∀ wrong ∈ wrongEndings, ' ' ∈ wrong.toList) ∧
      ∀ p ∈ mediaPhrases, ' ' ∈ p.toList := by decide
  have unlike : ∀ wrong ∈ wrongEndings, ¬ wrong.toList <:+ '"' :: (name.toList ++ ['"']) :=
    fun wrong listed last => solid (last.subset (spaced.1 wrong listed))
  have other : ∀ p ∈ mediaPhrases, p.toList ≠ '"' :: (name.toList ++ ['"']) :=
    fun p listed same => solid (same ▸ spaced.2 p listed)
  have apart : ∀ p ∈ [keywordValues, attributeKeywordName, familyKeywordName, memberAttributeName],
      p.anywhere = false ∧ ∀ o ∈ p.template.endings, Text.Apart o.toList ['"'] := by decide
  have read := read?_quotedName named.chars named.small
  rw [String.ofList_toList] at read
  have same := respelt_eq spelt
  rw [ofPhrase?_wrap w (text ▸ begins_quote _ _) (text ▸ Ends.of_suffix (by decide) ends)
    (text ▸ unlike) (text ▸ same.symm ▸ unlike) (text ▸ same.symm ▸ other), text, same]
  exact List.findSome?_eq_some_iff.mpr ⟨_, quotedName,
    [quotedNameOfFamily, sameMembers, familyAttribute], rfl, read, read?_of_ending ends apart⟩

theorem suffix_afterName (name family tail : List Char) :
    tail <:+ name ++ '"' :: ' ' :: (family ++ tail) := by
  have inner : tail <:+ '"' :: ' ' :: (family ++ tail) :=
    ((List.suffix_append ..).trans (List.suffix_cons ..)).trans (List.suffix_cons ..)
  exact inner.trans (List.suffix_append ..)

theorem isSound_attribute : IsSound " attribute".toList := by decide

theorem isSpelt_attribute {cs : List Char} (spelt : IsSpelt cs) :
    IsSpelt (cs ++ " attribute".toList) :=
  (isSpelt_append_cons rfl cs "attribute".toList).mpr
    ⟨spelt, isSpelt_of_notMem (by decide)⟩

theorem ofPhrase?_nameOfFamily (named : IsName name) (line : '\n' ∉ family.toList) :
    ofPhrase? (w.wrap ("\"" ++ name ++ "\" " ++ family ++ " attribute")) = some (.byName name) := by
  have text : ("\"" ++ name ++ "\" " ++ family ++ " attribute").toList =
      '"' :: (name.toList ++ '"' :: ' ' :: (family.toList ++ " attribute".toList)) := by
    simp [String.toList_append]
  have corrected : respelt
      ('"' :: (name.toList ++ '"' :: ' ' :: (family.toList ++ " attribute".toList))) =
      '"' :: (name.toList ++ '"' :: ' ' :: (respelt family.toList ++ " attribute".toList)) := by
    have last : respelt (family.toList ++ " attribute".toList) =
        respelt family.toList ++ " attribute".toList :=
      respelt_append_cons_left rfl family.toList (isSpelt_of_notMem (by decide))
    rw [respelt_cons rfl, respelt_append_cons_right rfl named.spelt, respelt_cons rfl, last]
  have ends : ∀ cs, " attribute".toList <:+
      '"' :: (name.toList ++ '"' :: ' ' :: (cs ++ " attribute".toList)) := fun cs =>
    (suffix_afterName name.toList cs _).trans (List.suffix_cons ..)
  have read := read?_quotedNameOfFamily named.chars named.small (not_mem_respelt rfl line)
  rw [String.ofList_toList] at read
  rw [ofPhrase?_wrap_of_ending w (text ▸ begins_quote _ _) isSound_attribute (text ▸ ends _)
    (text ▸ corrected ▸ ends _), text, corrected]
  exact List.findSome?_eq_some_iff.mpr ⟨_, quotedNameOfFamily, [sameMembers, familyAttribute], rfl,
    read, read?_of_attribute (ends _)⟩

theorem ofPhrase?_sameMembers (named : IsName name) (line : '\n' ∉ family.toList)
    (spelt : IsSpelt family.toList) :
    ofPhrase? (w.wrap ("Member attributes are the same as the \"" ++ name ++ "\" " ++ family ++
      " attribute")) = some (.byAlias name (Text.trimmed family)) := by
  let rest := name.toList ++ '"' :: ' ' :: (family.toList ++ " attribute".toList)
  have text : ("Member attributes are the same as the \"" ++ name ++ "\" " ++ family ++
      " attribute").toList = "Member attributes are the same as the \"".toList ++ rest := by
    simp [String.toList_append, rest]
  have opened : "Member attributes are the same as the \"".toList ++ rest =
      "Member attributes are the same as the ".toList ++ '"' :: rest := by simp
  have begins : Begins w.hasArticle ("Member attributes are the same as the \"".toList ++ rest) :=
    ⟨'M', _, rfl, by decide, fun _ => Or.inr rfl⟩
  have ends : " attribute".toList <:+ "Member attributes are the same as the \"".toList ++ rest :=
    (suffix_afterName ..).trans (List.suffix_append ..)
  have correct : IsSpelt ("Member attributes are the same as the \"".toList ++ rest) := by
    have start : IsSpelt "Member attributes are the same as the ".toList :=
      isSpelt_of_notMem (by decide)
    rw [opened, isSpelt_append_cons rfl, isSpelt_append_cons rfl, isSpelt_cons rfl]
    exact ⟨start, named.spelt, isSpelt_attribute spelt⟩
  have unquoted : quotedNameOfFamily.read?
      ("Member attributes are the same as the \"".toList ++ rest) = none :=
    read?_of_beginning rfl rfl (by simp)
  have read := read?_sameMembers named.chars named.small line
  rw [String.ofList_toList, String.ofList_toList] at read
  have none := List.forall_mem_append.mpr
    ⟨read?_of_attribute ends, List.forall_mem_singleton.mpr unquoted⟩
  exact ofPhrase?_of_stock _ text begins isSound_attribute ends correct rfl none read

section Titles

theorem IsTitle.chars (h : IsTitle family) : family.toList ≠ [] := by
  obtain ⟨c, listed, -⟩ := h.telling
  exact List.ne_nil_of_mem listed

theorem IsTitle.not_blank (h : IsTitle family) {c : Char} (listed : c ∈ family.toList)
    (solid : c ≠ ' ') : Text.isBlank c = false := by
  have letter := h.letters c listed
  have graphic : 33 ≤ c.toNat ∧ c.toNat ≤ 122 := by
    simp only [isTitleChar, Bool.or_eq_true, Bool.and_eq_true, decide_eq_true_eq, beq_iff_eq,
      solid, or_false, Char.le_def, UInt32.le_iff_toNat_le] at letter
    rcases letter with (⟨low, high⟩ | ⟨low, high⟩) | rfl
    · exact ⟨le_trans (by decide) low, le_trans high (by decide)⟩
    · exact ⟨le_trans (by decide) low, le_trans high (by decide)⟩
    · decide
  simp [Text.isBlank]
  omega

theorem IsTitle.trimmed (h : IsTitle family) : Text.trimmed family = family := by
  have phrase : Text.IsPhrase family.toList := by
    refine ⟨h.chars, ?_, ?_⟩
    · rw [← Bool.not_eq_true, Option.any_eq_true]
      rintro ⟨c, first, blank⟩
      rw [h.not_blank (List.mem_of_head? first) fun space => h.begins (space ▸ first)] at blank
      cases blank
    · rw [← Bool.not_eq_true, Option.any_eq_true]
      rintro ⟨c, last, blank⟩
      rw [h.not_blank (List.mem_of_getLast? last) fun space => h.ends (space ▸ last)] at blank
      cases blank
  rw [Text.trimmed, phrase.trim, String.ofList_toList]

theorem IsTitle.foreign (h : IsTitle family) : 0 < family.toList.countP isForeign := by
  obtain ⟨c, listed, telling⟩ := h.telling
  refine List.countP_pos_iff.mpr ⟨c, listed, ?_⟩
  rcases telling with rfl | ⟨low, high⟩
  · rfl
  · have notSmall : ¬ 'a' ≤ c := fun later => absurd (le_trans later high) (by decide)
    have noHyphen : c ≠ '-' := by
      rintro rfl
      exact absurd low (by decide)
    have noQuote : c ≠ '"' := by
      rintro rfl
      exact absurd low (by decide)
    simp [isForeign, isNameChar, notSmall, noHyphen, noQuote]

theorem ofPhrase?_keywordNameOfFamily (introduced : w.hasArticle = true)
    (titled : IsTitle family) :
    ofPhrase? (w.wrap (family ++ " attribute keyword name")) =
      some (.byGroup (familyTitle family)) := by
  have sound : IsSound " attribute keyword name".toList := by decide
  have ends : " attribute keyword name".toList <:+
      family.toList ++ " attribute keyword name".toList := List.suffix_append ..
  have spelt : IsSpelt (family.toList ++ " attribute keyword name".toList) :=
    (isSpelt_append_cons rfl family.toList "attribute keyword name".toList).mpr
      ⟨titled.spelt, isSpelt_of_notMem (by decide)⟩
  have spaces : " attribute keyword name".toList.countP isForeign = 3 := by decide
  have many : 3 < (family.toList ++ " attribute keyword name".toList).countP isForeign := by
    have more := titled.foreign
    rw [List.countP_append, spaces]
    omega
  have first := read?_keywordValues_of_foreign ends (by decide)
  have second := read?_attributeKeywordName_of_foreign many
  have read := read?_familyKeywordName titled.chars titled.letters
  rw [String.ofList_toList, titled.trimmed] at read
  exact ofPhrase?_of_stock _ String.toList_append
    (begins_article introduced titled.chars titled.begins _) sound ends spelt rfl
    (List.forall_mem_cons.mpr ⟨first, List.forall_mem_singleton.mpr second⟩) read

theorem ofPhrase?_family (introduced : w.hasArticle = true) (titled : IsTitle family)
    (words : ' ' ∈ family.toList) (letters : '-' ∉ family.toList) :
    ofPhrase? (w.wrap (family ++ " attribute")) = some (.byGroup family) := by
  have ends : " attribute".toList <:+ family.toList ++ " attribute".toList :=
    List.suffix_append ..
  have unquoted : '"' ∉ family.toList ++ " attribute".toList := by
    have outside : '"' ∉ family.toList := by
      intro listed
      have letter := titled.letters _ listed
      cases letter
    simp [outside]
  have fifth : quotedNameOfFamily.read? (family.toList ++ " attribute".toList) = none :=
    read?_of_beginning rfl rfl fun starts => unquoted (starts.subset (by decide))
  have sixth : sameMembers.read? (family.toList ++ " attribute".toList) = none :=
    read?_of_beginning rfl rfl fun starts => unquoted (starts.subset (by decide))
  have full : ∀ c ∈ family.toList, isTitleChar c = true := by
    intro c listed
    have letter := titled.letters c listed
    have other : c ≠ '-' := fun same => letters (same ▸ listed)
    simpa [other] using letter
  have spaced : Text.contains (Text.trimmed (String.ofList family.toList)) " " = true := by
    rw [String.ofList_toList, titled.trimmed, Text.contains, Text.occurs_iff]
    exact (List.singleton_infix_iff ..).mpr words
  have read := read?_familyAttribute full spaced titled.chars
  rw [String.ofList_toList, titled.trimmed] at read
  have none := List.forall_mem_append.mpr ⟨read?_of_attribute ends,
    List.forall_mem_cons.mpr ⟨fifth, List.forall_mem_singleton.mpr sixth⟩⟩
  exact ofPhrase?_of_stock _ String.toList_append
    (begins_article introduced titled.chars titled.begins _) isSound_attribute ends
    (isSpelt_attribute titled.spelt) rfl none read

end Titles

/-- Every wording of a reference is read as what it says, whatever wrapper it stands in. -/
theorem ofPhrase?_wording (w : Wrapper) {phrase : String} {ref : Reference}
    (worded : Wording w.hasArticle phrase ref) : ofPhrase? (w.wrap phrase) = some ref := by
  cases worded with
  | values named ended => exact ofPhrase?_values named ended
  | keywordName named => exact ofPhrase?_keywordName named
  | members quoted named ended => exact ofPhrase?_members quoted named ended
  | name named => exact ofPhrase?_name named
  | nameOfFamily named line => exact ofPhrase?_nameOfFamily named line
  | sameMembers named line spelt => exact ofPhrase?_sameMembers named line spelt
  | keywordNameOfFamily introduced titled => exact ofPhrase?_keywordNameOfFamily introduced titled
  | family introduced titled words letters => exact ofPhrase?_family introduced titled words letters

/-- `< any "media" keyword value >` -/
theorem ofPhrase?_wording_of_media :
    ofPhrase? "< any \"media\" keyword value >" = some (.byName "media") := by
  let w : Wrapper := ⟨"< ", "any ", " >", by decide, by decide, by decide⟩
  have named : IsName "media" := ⟨by decide, List.all_eq_true.mp rfl, isSpelt_of_notMem (by decide)⟩
  let phrase := "\"" ++ "media" ++ "\"" ++ " keyword value"
  have worded : Wording w.hasArticle phrase (.byName "media") := .values named (by decide)
  have text : w.wrap phrase = "< any \"media\" keyword value >" := by decide
  rw [← text]
  exact ofPhrase?_wording w worded

end Wordings

end PrintRegistry.Reference
