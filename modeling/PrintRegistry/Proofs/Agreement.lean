import PrintRegistry.Proofs.Entity

/-!
Declaring the same. Entities that declare the same as a third one declare the same as
each other. An entity declares the same as itself, and as every one that declares the same
as it, if members and values are known by name at every depth, as they are in any registry
that records build: of two members of one name only the first is ever looked at.
-/

namespace PrintRegistry

namespace Values

variable {u v w : Values}

/-- The values listed are known by label, or by the word itself. -/
def Distinct : Values → Prop
  | unlisted => True
  | codes entries => (Named.names entries).Nodup
  | words entries => (Named.names entries).Nodup

theorem agree_codes {xs ys : List EnumCode} : (codes xs).agree (codes ys) = true ↔
    Named.Matches (fun x y => x.code = y.code) xs ys := by
  rw [agree, Named.agree_iff]
  simp only [beq_iff_eq]

theorem agree_words {xs ys : List String} : (words xs).agree (words ys) = true ↔
    Named.Matches (fun _ _ => True) xs ys := by
  rw [agree, Named.agree_iff]
  simp only

theorem agree_self (h : v.Distinct) : v.agree v = true := by
  cases v with
  | unlisted => rfl
  | codes entries => exact agree_codes.mpr (Named.matches_self h fun _ _ => rfl)
  | words entries => exact agree_words.mpr (Named.matches_self h fun _ _ => trivial)

theorem agree_symm (hv : v.Distinct) (hw : w.Distinct) (h : v.agree w = true) :
    w.agree v = true := by
  cases v <;> cases w <;> try cases h
  · rfl
  · exact agree_codes.mpr ((agree_codes.mp h).symm hv hw fun _ _ _ _ same => same.symm)
  · exact agree_words.mpr ((agree_words.mp h).symm hv hw fun _ _ _ _ _ => trivial)

theorem agree_trans (first : u.agree v = true) (second : v.agree w = true) :
    u.agree w = true := by
  cases u <;> cases v <;> try cases first
  all_goals cases w <;> try cases second
  · rfl
  · exact agree_codes.mpr ((agree_codes.mp first).trans (agree_codes.mp second)
      fun _ _ _ _ _ _ same same' => same.trans same')
  · exact agree_words.mpr ((agree_words.mp first).trans (agree_words.mp second)
      fun _ _ _ _ _ _ _ _ => trivial)

end Values

namespace Entity

variable {a b c : Entity}

/-- Members and values are known by name, at every depth. -/
inductive Keyed : Entity → Prop where
  | intro {e : Entity} (values : e.values.Distinct) (names : (Named.names e.members).Nodup)
      (members : ∀ m ∈ e.members, m.Keyed) : e.Keyed

theorem Keyed.values {e : Entity} (h : e.Keyed) : e.values.Distinct := by
  cases h
  assumption

theorem Keyed.names {e : Entity} (h : e.Keyed) : (Named.names e.members).Nodup := by
  cases h
  assumption

theorem Keyed.members {e m : Entity} (h : e.Keyed) (member : m ∈ e.members) : m.Keyed := by
  cases h with
  | intro _ _ members => exact members m member

theorem sameDeclaration_self (h : a.Keyed) : a.sameDeclaration a = true := by
  induction a using memberInduction with
  | step a ih =>
    refine sameDeclaration_iff.mpr ⟨rfl, (Grammar.beq_iff _ _).mpr ⟨rfl, rfl⟩,
      Values.agree_self h.values, rfl, rfl, ?_⟩
    apply sameMembers_iff.mpr
    apply Named.matches_self h.names
    intro m member
    exact ih m member (h.members member)

theorem sameDeclaration_symm (ha : a.Keyed) (hb : b.Keyed) (h : a.sameDeclaration b = true) :
    b.sameDeclaration a = true := by
  induction a using memberInduction generalizing b with
  | step a ih =>
    obtain ⟨name, grammar, values, reference, unreadable, members⟩ := sameDeclaration_iff.mp h
    rw [Grammar.beq_iff] at grammar
    refine sameDeclaration_iff.mpr ⟨name.symm, (Grammar.beq_iff _ _).mpr ⟨grammar.1.symm,
      grammar.2.symm⟩, Values.agree_symm ha.values hb.values values, reference.symm,
      unreadable.symm, ?_⟩
    apply sameMembers_iff.mpr
    apply (sameMembers_iff.mp members).symm ha.names hb.names
    intro x member y present same
    exact ih x member (ha.members member) (hb.members present) same

theorem sameDeclaration_trans (first : a.sameDeclaration b = true)
    (second : b.sameDeclaration c = true) : a.sameDeclaration c = true := by
  induction a using memberInduction generalizing b c with
  | step a ih =>
    obtain ⟨name, grammar, values, reference, unreadable, members⟩ := sameDeclaration_iff.mp first
    obtain ⟨name', grammar', values', reference', unreadable', members'⟩ :=
      sameDeclaration_iff.mp second
    rw [Grammar.beq_iff] at grammar grammar'
    have same : (a.grammar == c.grammar) = true :=
      (Grammar.beq_iff _ _).mpr ⟨grammar.1.trans grammar'.1, grammar.2.trans grammar'.2⟩
    refine sameDeclaration_iff.mpr ⟨name.trans name', same, Values.agree_trans values values',
      reference.trans reference', unreadable.trans unreadable', ?_⟩
    apply sameMembers_iff.mpr
    apply (sameMembers_iff.mp members).trans (sameMembers_iff.mp members')
    intro x member _ _ _ _ declared declared'
    exact ih x member declared declared'

theorem sameMembers_self (h : a.Keyed) : a.sameMembers a = true :=
  sameMembers_of_sameDeclaration (sameDeclaration_self h)

theorem sameMembers_symm (ha : a.Keyed) (hb : b.Keyed) (h : a.sameMembers b = true) :
    b.sameMembers a = true := by
  apply sameMembers_iff.mpr
  apply (sameMembers_iff.mp h).symm ha.names hb.names
  intro x member y present same
  exact sameDeclaration_symm (ha.members member) (hb.members present) same

theorem sameMembers_trans (first : a.sameMembers b = true) (second : b.sameMembers c = true) :
    a.sameMembers c = true := by
  apply sameMembers_iff.mpr
  apply (sameMembers_iff.mp first).trans (sameMembers_iff.mp second)
  intro _ _ _ _ _ _ declared declared'
  exact sameDeclaration_trans declared declared'

end Entity

end PrintRegistry
