import PrintRegistry.Proofs.Widening

/-!
What the order of the families decides. Their declarations of a name are reconciled one after
another, each with what stands for the ones before it. Where one order reconciles all of them,
every other order that does so gives the same grammar. But there are two ways in which an
order fails that another one avoids: two bounded forms come before their base, or the
grammar that stands is reached before a declaration of that very grammar comes, which then
has to agree with the first one in everything else too.
-/

namespace PrintRegistry

namespace Grammar

variable {base x y t : String}

theorem isBoundedForm_base (known : .bounded base ∈ unions) (other : String) :
    isBoundedForm other base = false :=
  isBoundedForm_of_plain (base_plain known).2

/-- A bounded form is covered together with nothing but itself and its base. -/
theorem jointText?_bounded (known : .bounded base ∈ unions) (bounded : isBoundedForm base x = true)
    (h : jointText? x y = some t) : y = x ∨ y = base := by
  rcases jointText?_cases h with ⟨same, -⟩ | ⟨-, u, known', joins, -⟩
  · exact Or.inl same.symm
  · cases u with
    | pair first second cover =>
      have plain : ∀ text ∈ ["name", "keyword | name"], '(' ∉ text.toList := by decide
      simp only [unions, List.mem_cons, List.not_mem_nil, or_false, Union.pair.injEq, reduceCtorEq]
        at known'
      obtain ⟨rfl, rfl, rfl⟩ := known'
      have side : x ∈ ["name", "keyword | name"] := by
        rcases joins with ⟨here, -⟩ | ⟨here, -⟩ <;> simp [here]
      rw [isBoundedForm_of_plain (plain x side)] at bounded
      cases bounded
    | bounded base' =>
      rcases joins with ⟨rfl, -⟩ | ⟨rfl, bounded'⟩
      · rw [isBoundedForm_base known'] at bounded
        cases bounded
      · exact Or.inr ((stem_of_bounded known' bounded').symm.trans (stem_of_bounded known bounded))

theorem jointText?_below (h : jointText? x t = some t) :
    x = t ∨ x = "name" ∧ t = "keyword | name" ∨
      .bounded t ∈ unions ∧ isBoundedForm t x = true := by
  rcases jointText?_cases h with ⟨same, -⟩ | ⟨different, u, known, joins, covers⟩
  · exact Or.inl same
  · refine Or.inr ?_
    cases u with
    | pair first second cover =>
      simp only [unions, List.mem_cons, List.not_mem_nil, or_false, Union.pair.injEq, reduceCtorEq]
        at known
      obtain ⟨rfl, rfl, rfl⟩ := known
      rcases joins with ⟨here, -⟩ | ⟨here, -⟩
      · exact Or.inl ⟨here, covers⟩
      · exact absurd (here.trans covers.symm) different
    | bounded base =>
      obtain rfl : t = base := covers
      rcases joins with ⟨here, -⟩ | ⟨-, bounded⟩
      · exact absurd here different
      · exact Or.inr ⟨known, bounded⟩

/-- Two texts that a third one covers, but that are not covered together, are different
bounded forms of it. -/
theorem bounded_of_apart (first : jointText? x t = some t) (second : jointText? y t = some t)
    (apart : jointText? x y = none) :
    .bounded t ∈ unions ∧ isBoundedForm t x = true ∧ isBoundedForm t y = true ∧ x ≠ y := by
  have different : x ≠ y := by
    rintro rfl
    rw [jointText?_self] at apart
    cases apart
  rcases jointText?_below first with rfl | ⟨name, choice⟩ | ⟨known, bounded⟩
  · rw [jointText?_comm, second] at apart
    cases apart
  · rcases jointText?_below second with rfl | ⟨name', -⟩ | ⟨known, -⟩
    · rw [first] at apart
      cases apart
    · exact absurd (name.trans name'.symm) different
    · rw [choice] at known
      exact absurd known (by decide)
  · rcases jointText?_below second with rfl | ⟨-, choice⟩ | ⟨-, bounded'⟩
    · rw [first] at apart
      cases apart
    · rw [choice] at known
      exact absurd known (by decide)
    · exact ⟨known, bounded, bounded', different⟩

/-- A grammar covers those of some declarations: its text is that of one of them and covers
the text of each, and it takes a set exactly if one of them does. -/
structure CoversAll (g : Grammar) (es : List Entity) : Prop where
  own : ∃ d ∈ es, d.grammar.text = g.text
  covers : ∀ d ∈ es, jointText? d.grammar.text g.text = some g.text
  sets : g.isSet = es.any (·.grammar.isSet)

namespace CoversAll

variable {g h : Grammar} {es fs : List Entity}

theorem congr (same : (g == h) = true) (covers : g.CoversAll es) : h.CoversAll es := by
  obtain ⟨text, set⟩ := (beq_iff g h).mp same
  exact ⟨text ▸ covers.own, text ▸ covers.covers, set ▸ covers.sets⟩

theorem perm (moved : es.Perm fs) (covers : g.CoversAll es) : g.CoversAll fs where
  own := covers.own.imp fun _ found => found.imp_left moved.mem_iff.mp
  covers d member := covers.covers d (moved.mem_iff.mpr member)
  sets := covers.sets.trans moved.any_eq

/-- One more declaration, and the grammar that covers it and the one before. -/
theorem concat {e : Entity} (covers : g.CoversAll es)
    (joint : jointText? g.text e.grammar.text = some h.text)
    (sets : h.isSet = (g.isSet || e.grammar.isSet)) : h.CoversAll (es ++ [e]) where
  own := by
    rcases jointText?_side joint with here | here
    · obtain ⟨d, member, own⟩ := covers.own
      exact ⟨d, List.mem_append_left _ member, own.trans here.symm⟩
    · exact ⟨e, List.mem_append_right _ List.mem_cons_self, here.symm⟩
  covers d member := by
    obtain ⟨up, up'⟩ := jointText?_absorbs joint
    rcases List.mem_append.mp member with old | new
    · exact jointText?_trans (covers.covers d old) ((jointText?_comm _ _).trans up)
    · rw [List.mem_singleton.mp new, jointText?_comm, up']
  sets := by rw [sets, covers.sets, List.any_append, List.any_cons, List.any_nil, Bool.or_false]

/-- No two grammars cover the same declarations. -/
theorem unique (first : g.CoversAll es) (second : h.CoversAll es) : (g == h) = true := by
  obtain ⟨d, member, own⟩ := first.own
  obtain ⟨e, member', own'⟩ := second.own
  have up : jointText? g.text h.text = some h.text := own ▸ second.covers d member
  have down : jointText? h.text g.text = some g.text := own' ▸ first.covers e member'
  rw [jointText?_comm, up] at down
  exact (beq_iff g h).mpr ⟨(Option.some.inj down).symm, first.sets.trans second.sets.symm⟩

end CoversAll

end Grammar

namespace Entity

section Declarations

variable {a b e kept both : Entity}

/-- Two declarations are the same apart from their grammars. -/
def sameButGrammar (a b : Entity) : Bool :=
  { a with grammar := b.grammar }.sameDeclaration b

theorem sameButGrammar_iff : a.sameButGrammar b = true ↔ a.name = b.name ∧
    a.values.agree b.values = true ∧ a.reference = b.reference ∧ a.unreadable = b.unreadable ∧
      a.sameMembers b = true := by
  have self : (b.grammar == b.grammar) = true := (Grammar.beq_iff _ _).mpr ⟨rfl, rfl⟩
  rw [sameButGrammar, sameDeclaration_iff]
  exact and_congr_right fun _ => and_iff_right self

theorem sameDeclaration_eq (same : (a.grammar == b.grammar) = true) :
    a.sameDeclaration b = a.sameButGrammar b := by
  rw [Bool.eq_iff_iff, sameDeclaration_iff, sameButGrammar_iff]
  exact and_congr_right fun _ => and_iff_right same

theorem sameButGrammar_citing (a : Entity) (specs : List String) (grammar : Grammar) (b : Entity) :
    { a.citingAll specs with grammar }.sameButGrammar b = a.sameButGrammar b := by
  rw [Bool.eq_iff_iff, sameButGrammar_iff, sameButGrammar_iff]
  exact Iff.rfl

/-- A declaration that is no collection cannot be reconciled with what stands if no text
covers both, or if only their grammars are the same. -/
theorem reconcile?_eq_none_iff (plain : e.grammar.isCollection = false) :
    kept.reconcile? e = none ↔ Grammar.jointText? kept.grammar.text e.grammar.text = none ∨
      (kept.grammar == e.grammar) = true ∧ kept.sameButGrammar e = false := by
  rw [reconcile?, plain, Bool.and_false, if_neg Bool.false_ne_true, Grammar.unify_eq]
  by_cases same : (kept.grammar == e.grammar) = true
  · have joint : Grammar.jointText? kept.grammar.text e.grammar.text ≠ none := by
      rw [((Grammar.beq_iff _ _).mp same).1, Grammar.jointText?_self]
      exact Option.some_ne_none _
    rw [if_pos same, or_iff_right joint, and_iff_right same, sameDeclaration_eq same]
    cases kept.sameButGrammar e <;> simp
  · have other : kept.sameDeclaration e = false :=
      Bool.eq_false_iff.mpr fun declared => same (grammar_of_sameDeclaration declared)
    rw [if_neg same, other]
    cases Grammar.jointText? kept.grammar.text e.grammar.text <;> simp [same]

/-- The grammar of two reconciled declarations covers theirs. -/
theorem grammar_of_reconcile? (settled : Grammar.IsSettled kept.grammar.text)
    (settled' : Grammar.IsSettled e.grammar.text) (h : kept.reconcile? e = some both) :
    Grammar.jointText? kept.grammar.text e.grammar.text = some both.grammar.text ∧
      both.grammar.isSet = (kept.grammar.isSet || e.grammar.isSet) := by
  have plain : e.grammar.isCollection = false := beq_false_of_ne settled'.other
  rcases (reconcile?_eq_some h).2 with ⟨collections, -⟩ | ⟨-, unified | ⟨declared, same⟩⟩
  · rw [plain, Bool.and_false] at collections
    cases collections
  · obtain ⟨-, t, joint, covers⟩ := Grammar.unify_eq_some unified
    have normal : (Grammar.normalize t).text = t := by
      rcases Grammar.jointText?_side joint with rfl | rfl
      · exact settled.normal
      · exact settled'.normal
    have text : both.grammar.text = t := by
      rw [← covers]
      exact normal
    exact ⟨text ▸ joint, Grammar.isSet_unify unified⟩
  · obtain ⟨text, set⟩ := (Grammar.beq_iff _ _).mp (grammar_of_sameDeclaration declared)
    rw [same, text, ← set, Bool.or_self]
    exact ⟨Grammar.jointText?_self _, rfl⟩

end Declarations

section Settling

variable {es : List Entity} {kept : Entity}

/-- The entity that stands for declarations of a name, if each of them can be reconciled with
what stands for the ones before it. -/
def settle? : List Entity → Option Entity
  | [] => none
  | first :: es => es.foldlM reconcile? first

theorem settle?_concat (nonempty : es ≠ []) (e : Entity) :
    settle? (es ++ [e]) = (settle? es).bind (·.reconcile? e) := by
  cases es with
  | nil => exact absurd rfl nonempty
  | cons first es =>
    rw [List.cons_append, settle?, settle?, List.foldlM_append]
    cases es.foldlM reconcile? first <;> simp

/-- What holds of one declaration holds of those that settle, if each further one that is
reconciled keeps it. -/
theorem settle?_induction {motive : List Entity → Entity → Prop} (single : ∀ e, motive [e] e)
    (next : ∀ es kept e both, motive es kept → kept.reconcile? e = some both →
      motive (es ++ [e]) both) (h : settle? es = some kept) : motive es kept := by
  induction es using List.reverseRecOn generalizing kept with
  | nil => cases h
  | append_singleton es e ih =>
    by_cases empty : es = []
    · subst empty
      obtain rfl : e = kept := Option.some.inj h
      exact single e
    · rw [settle?_concat empty, Option.bind_eq_some_iff] at h
      obtain ⟨before, settles, reconciled⟩ := h
      exact next es before e kept (ih settles) reconciled

/-- Declarations do not settle exactly if one of them cannot be reconciled with what stands
for the ones before it. -/
theorem settle?_eq_none_iff (nonempty : es ≠ []) : settle? es = none ↔
    ∃ before e after kept, es = before ++ e :: after ∧ settle? before = some kept ∧
      kept.reconcile? e = none := by
  induction es using List.reverseRecOn with
  | nil => exact absurd rfl nonempty
  | append_singleton es e ih =>
    constructor
    · intro fails
      by_cases empty : es = []
      · subst empty
        cases fails
      · rw [settle?_concat empty] at fails
        cases settles : settle? es with
        | none =>
          obtain ⟨before, d, after, kept, rfl, stands, none⟩ := (ih empty).mp settles
          exact ⟨before, d, after ++ [e], kept, by simp, stands, none⟩
        | some kept =>
          rw [settles, Option.bind_some] at fails
          exact ⟨es, e, [], kept, rfl, settles, fails⟩
    · rintro ⟨before, d, after, kept, same, stands, none⟩
      rcases List.eq_nil_or_concat after with rfl | ⟨after, last, rfl⟩
      · obtain ⟨rfl, last⟩ := List.append_inj' same rfl
        obtain rfl := List.singleton_inj.mp last
        have nonempty : es ≠ [] := by
          rintro rfl
          cases stands
        rw [settle?_concat nonempty, stands, Option.bind_some, none]
      · rw [List.concat_eq_append, ← List.cons_append, ← List.append_assoc] at same
        obtain ⟨rfl, -⟩ := List.append_inj' same rfl
        have nonempty : before ++ d :: after ≠ [] := by simp
        rw [settle?_concat nonempty, (ih nonempty).mpr ⟨before, d, after, kept, rfl, stands, none⟩,
          Option.bind_none]

/-- The grammar of what stands for declarations covers theirs, and all else is as the first
one declares it. -/
theorem coversAll_settle? (settled : ∀ d ∈ es, Grammar.IsSettled d.grammar.text)
    (h : settle? es = some kept) : kept.grammar.CoversAll es ∧
      ∃ first, es.head? = some first ∧ ∀ e, kept.sameButGrammar e = first.sameButGrammar e := by
  revert settled
  refine settle?_induction (motive := fun es kept =>
    (∀ d ∈ es, Grammar.IsSettled d.grammar.text) → kept.grammar.CoversAll es ∧
      ∃ first, es.head? = some first ∧ ∀ e, kept.sameButGrammar e = first.sameButGrammar e)
    (fun e _ => ?_) (fun es kept e both before reconciled settled => ?_) h
  · refine ⟨⟨⟨e, List.mem_singleton_self e, rfl⟩, fun d member => ?_, by simp⟩, e, rfl, fun _ => rfl⟩
    rw [List.mem_singleton.mp member, Grammar.jointText?_self]
  · obtain ⟨covers, first, head, same⟩ := before fun d member =>
      settled d (List.mem_append_left _ member)
    obtain ⟨d, member, own⟩ := covers.own
    obtain ⟨joint, sets⟩ := grammar_of_reconcile?
      (own ▸ settled d (List.mem_append_left _ member)) (settled e (by simp)) reconciled
    refine ⟨covers.concat joint sets, first, ?_, fun x => ?_⟩
    · rw [List.head?_append, head, Option.some_or]
    · rw [← same, (reconcile?_eq_some reconciled).1, sameButGrammar_citing]

end Settling

section Clashes

variable {before es fs : List Entity} {e kept : Entity}

/-- A declaration clashes with those that come before it. -/
inductive Clashes (before : List Entity) (e : Entity) : Prop
  /-- Two bounded forms of a base have come, and the base has not. -/
  | bounds {base : String} (known : .bounded base ∈ Grammar.unions)
      (bounded : Grammar.isBoundedForm base e.grammar.text = true)
      (earlier : ∃ d ∈ before, Grammar.isBoundedForm base d.grammar.text = true ∧
        d.grammar.text ≠ e.grammar.text)
      (missing : ∀ d ∈ before, d.grammar.text ≠ base)
  /-- Its grammar covers those that have come, but it is not the same as the first one in
  everything else. -/
  | rest {first : Entity} (head : before.head? = some first)
      (covers : e.grammar.CoversAll before) (differs : first.sameButGrammar e = false)

theorem Clashes.nonempty (h : Clashes before e) : before ≠ [] := by
  cases h with
  | bounds _ _ earlier =>
    obtain ⟨d, member, -⟩ := earlier
    exact List.ne_nil_of_mem member
  | rest head => exact List.ne_nil_of_mem (List.mem_of_head? head)

/-- A declaration that clashes with those before it cannot be reconciled with what stands for
them. -/
theorem Clashes.reconcile?_eq_none (h : Clashes before e)
    (settled : ∀ d ∈ before, Grammar.IsSettled d.grammar.text)
    (settled' : Grammar.IsSettled e.grammar.text) (stands : settle? before = some kept) :
    kept.reconcile? e = none := by
  have plain : e.grammar.isCollection = false := beq_false_of_ne settled'.other
  obtain ⟨covered, first, head, same⟩ := coversAll_settle? settled stands
  refine (reconcile?_eq_none_iff plain).mpr ?_
  cases h with
  | @bounds base known bounded earlier missing =>
    obtain ⟨d, member, bounded', different⟩ := earlier
    obtain ⟨c, among, own⟩ := covered.own
    have stays : kept.grammar.text = d.grammar.text :=
      (Grammar.jointText?_bounded known bounded' (covered.covers d member)).resolve_right
        (own ▸ missing c among)
    refine Or.inl (Option.eq_none_iff_forall_ne_some.mpr fun t joint => ?_)
    rw [stays] at joint
    rcases Grammar.jointText?_bounded known bounded' joint with again | here
    · exact different again.symm
    · rw [here, Grammar.isBoundedForm_base known] at bounded
      cases bounded
  | @rest first' head' covers differs =>
    obtain rfl := Option.some.inj (head'.symm.trans head)
    exact Or.inr ⟨covered.unique covers, (same e).trans differs⟩

/-- If declarations have a common cover, only one that clashes with those before it cannot be
reconciled with what stands for them. -/
theorem clashes_of_reconcile? (settled : ∀ d ∈ before, Grammar.IsSettled d.grammar.text)
    (settled' : Grammar.IsSettled e.grammar.text) (stands : settle? before = some kept)
    {cover : String}
    (common : ∀ d ∈ before, Grammar.jointText? d.grammar.text cover = some cover)
    (common' : Grammar.jointText? e.grammar.text cover = some cover)
    (none : kept.reconcile? e = none) : Clashes before e := by
  have plain : e.grammar.isCollection = false := beq_false_of_ne settled'.other
  obtain ⟨covered, first, head, same⟩ := coversAll_settle? settled stands
  rcases (reconcile?_eq_none_iff plain).mp none with apart | ⟨alike, differs⟩
  · obtain ⟨d, member, own⟩ := covered.own
    obtain ⟨known, bounded, bounded', different⟩ :=
      Grammar.bounded_of_apart (own ▸ common d member) common' apart
    refine .bounds known bounded' ⟨d, member, own ▸ bounded, own ▸ different⟩ fun c among here => ?_
    -- Had the base come, it would stand for all that has come, and not a bounded form of it.
    have stays := covered.covers c among
    rw [here] at stays
    have base : kept.grammar.text = cover := Grammar.Union.cover_top known stays
    rw [base, Grammar.isBoundedForm_base known] at bounded
    cases bounded
  · exact .rest head (covered.congr alike) ((same e).symm.trans differs)

/-- Where declarations settle in one order, they settle in another one unless one of them
clashes with those before it, and with the same grammar. -/
theorem settle?_order (moved : es.Perm fs) (settled : ∀ d ∈ fs, Grammar.IsSettled d.grammar.text)
    (stands : settle? fs = some kept) :
    (settle? es = none ↔ ∃ before e after, es = before ++ e :: after ∧ Clashes before e) ∧
      ∀ kept', settle? es = some kept' → (kept'.grammar == kept.grammar) = true := by
  have settled' : ∀ d ∈ es, Grammar.IsSettled d.grammar.text := fun d member =>
    settled d (moved.mem_iff.mp member)
  have covered := (coversAll_settle? settled stands).1
  have common : ∀ d ∈ es,
      Grammar.jointText? d.grammar.text kept.grammar.text = some kept.grammar.text := fun d member =>
    covered.covers d (moved.mem_iff.mp member)
  have nonempty : es ≠ [] := by
    rintro rfl
    obtain rfl := moved.nil_eq
    cases stands
  refine ⟨⟨fun fails => ?_, ?_⟩, fun kept' stands' => ?_⟩
  · obtain ⟨before, e, after, kept', rfl, stands', none⟩ := (settle?_eq_none_iff nonempty).mp fails
    refine ⟨before, e, after, rfl, clashes_of_reconcile?
      (fun d member => settled' d (List.mem_append_left _ member)) (settled' e (by simp)) stands'
      (fun d member => common d (List.mem_append_left _ member)) (common e (by simp)) none⟩
  · rintro ⟨before, e, after, rfl, clashes⟩
    refine (settle?_eq_none_iff nonempty).mpr ?_
    cases stands' : settle? before with
    | none =>
      obtain ⟨earlier, d, later, kept', rfl, stands', none⟩ :=
        (settle?_eq_none_iff clashes.nonempty).mp stands'
      exact ⟨earlier, d, later ++ e :: after, kept', by simp, stands', none⟩
    | some kept' =>
      exact ⟨before, e, after, kept', rfl, stands', clashes.reconcile?_eq_none
        (fun d member => settled' d (List.mem_append_left _ member)) (settled' e (by simp)) stands'⟩
  · exact (coversAll_settle? settled' stands').1.unique (covered.perm moved.symm)

end Clashes

end Entity

/-- The finding says that a declaration of the name differs from the one that stands. -/
def Finding.disputes (name : String) : Finding → Bool
  | familiesDisagree _ kept _ => kept.name == name
  | _ => false

/-- Among the findings is one that says so. -/
def Disputed (findings : List Finding) (name : String) : Prop :=
  findings.any (·.disputes name) = true

instance (findings : List Finding) (name : String) : Decidable (Disputed findings name) :=
  inferInstanceAs (Decidable (_ = true))

theorem disputed_canonize (canon : Table Entity × List Finding) (family : String) (e : Entity)
    (name : String) : Disputed (Registry.canonize canon family e).2 name ↔ Disputed canon.2 name ∨
      e.name = name ∧ ∃ kept, canon.1.find? name = some kept ∧ kept.reconcile? e = none := by
  simp only [Disputed, List.any_eq_true]
  constructor
  · rintro ⟨f, listed, about⟩
    rcases Registry.mem_findings_canonize.mp listed with old | ⟨kept, found, failed, rfl⟩
    · exact Or.inl ⟨f, old, about⟩
    · have here : e.name = name := (Table.mem_of_find? found).2.symm.trans (beq_iff_eq.mp about)
      exact Or.inr ⟨here, kept, here ▸ found, failed⟩
  · rintro (⟨f, listed, about⟩ | ⟨rfl, kept, found, failed⟩)
    · exact ⟨f, Registry.mem_findings_canonize.mpr (Or.inl listed), about⟩
    · exact ⟨_, Registry.mem_findings_canonize.mpr (Or.inr ⟨kept, found, failed, rfl⟩),
        beq_iff_eq.mpr (Table.mem_of_find? found).2⟩

/-- What the canonical declaration of a name and the findings about it tell of the
declarations that have come. -/
inductive Stands (findings : List Finding) (name : String) :
    List Entity → Option Entity → Prop
  | none (quiet : ¬ Disputed findings name) : Stands findings name [] none
  | settled {es : List Entity} {kept : Entity} (quiet : ¬ Disputed findings name)
      (settles : Entity.settle? es = some kept) : Stands findings name es (some kept)
  | disputed {es : List Entity} {kept : Entity} (disputed : Disputed findings name)
      (nonempty : es ≠ []) (fails : Entity.settle? es = Option.none) :
      Stands findings name es (some kept)

namespace Stands

variable {canon : Table Entity × List Finding} {name : String} {es : List Entity} {e : Entity}

/-- A declaration of the name is reconciled with what stands, or disputed. -/
theorem add (h : Stands canon.2 name es (canon.1.find? name)) (family : String)
    (named : e.name = name) : Stands (Registry.canonize canon family e).2 name (es ++ [e])
      ((Registry.canonize canon family e).1.find? name) := by
  have later := disputed_canonize canon family e name
  rw [Registry.find?_canonize, if_pos named]
  generalize found : canon.1.find? name = standing at h later
  cases h with
  | none quiet =>
    refine .settled (fun disputed => ?_) rfl
    obtain ⟨-, _, absent, -⟩ := (later.mp disputed).resolve_left quiet
    cases absent
  | @settled _ kept quiet settles =>
    have nonempty : es ≠ [] := by
      rintro rfl
      cases settles
    have next := Entity.settle?_concat nonempty e
    rw [settles, Option.bind_some] at next
    cases reconciled : kept.reconcile? e with
    | none =>
      exact .disputed (later.mpr (Or.inr ⟨named, kept, rfl, reconciled⟩)) (by simp)
        (next.trans reconciled)
    | some both =>
      rw [Option.elim_some, reconciled, Option.getD_some]
      refine .settled (fun disputed => ?_) (next.trans reconciled)
      obtain ⟨-, _, known, failed⟩ := (later.mp disputed).resolve_left quiet
      rw [← Option.some.inj known, reconciled] at failed
      cases failed
  | disputed disputed nonempty fails =>
    refine .disputed (later.mpr (Or.inl disputed)) (by simp) ?_
    rw [Entity.settle?_concat nonempty, fails, Option.bind_none]

/-- A declaration of another name makes no difference. -/
theorem skip (h : Stands canon.2 name es (canon.1.find? name)) (family : String)
    (other : e.name ≠ name) : Stands (Registry.canonize canon family e).2 name es
      ((Registry.canonize canon family e).1.find? name) := by
  have same : Disputed (Registry.canonize canon family e).2 name ↔ Disputed canon.2 name :=
    (disputed_canonize canon family e name).trans (or_iff_left fun here => other here.1)
  rw [Registry.find?_canonize, if_neg other]
  generalize canon.1.find? name = standing at h
  cases h with
  | none quiet => exact .none (same.not.mpr quiet)
  | settled quiet settles => exact .settled (same.not.mpr quiet) settles
  | disputed disputed nonempty fails => exact .disputed (same.mpr disputed) nonempty fails

end Stands

namespace Registry

variable {r : Registry} {name : String}

theorem stands_canon (r : Registry) (name : String) :
    Stands r.canon.2 name (r.declarations name) (r.canon.1.find? name) :=
  foldl_canonize_induction (motive := fun canon es => Stands canon.2 name es (canon.1.find? name))
    name r.attributes (.none nofun) (fun _ _ a _ named h => h.add a.1 named)
    fun _ _ a _ other h => h.skip a.1 other

/-- The declarations of a name are disputed exactly if they do not settle. -/
theorem disputed_iff : Disputed r.canon.2 name ↔
    r.declarations name ≠ [] ∧ Entity.settle? (r.declarations name) = none := by
  have stands := stands_canon r name
  generalize r.canon.1.find? name = standing at stands
  generalize r.declarations name = es at stands ⊢
  cases stands with
  | none quiet => simp [quiet]
  | settled quiet settles => simp [quiet, settles]
  | disputed disputed nonempty fails => simp [disputed, nonempty, fails]

theorem settle?_of_quiet (quiet : ¬ Disputed r.canon.2 name) :
    Entity.settle? (r.declarations name) = r.canon.1.find? name := by
  have stands := stands_canon r name
  generalize r.canon.1.find? name = standing at stands ⊢
  generalize r.declarations name = es at stands ⊢
  cases stands with
  | none => rfl
  | settled _ settles => exact settles
  | disputed disputed => exact absurd disputed quiet

/-- The text of the grammar that a name gets from all families, and whether it takes a set. -/
def unified? (r : Registry) (name : String) : Option (String × Bool) :=
  (r.unifyFamilies.types.find? name).map fun e => (e.grammar.text, e.grammar.isSet)

theorem unified?_of_quiet (quiet : ¬ Disputed r.canon.2 name) : r.unified? name =
    (Entity.settle? (r.declarations name)).map fun e => (e.grammar.text, e.grammar.isSet) := by
  rw [settle?_of_quiet quiet]
  rfl

variable {r' : Registry}

/-- In another order, the families declare the same. -/
theorem perm_declarations (moved : r'.families.toList.Perm r.families.toList) (name : String) :
    (r'.declarations name).Perm (r.declarations name) :=
  ((moved.flatMap_right _).map _).filter _

/-- If the families declare a name without dispute in one order, they do so in another one,
and with the same grammar, unless a declaration clashes with those before it. -/
theorem unifyFamilies_order (moved : r'.families.toList.Perm r.families.toList)
    (plain : ∀ d ∈ r.declarations name, d.grammar.isCollection = false)
    (normal : ∀ d ∈ r.declarations name,
      (Grammar.normalize d.grammar.text).text = d.grammar.text)
    (quiet : ¬ Disputed r.canon.2 name) :
    (Disputed r'.canon.2 name ↔ ∃ before e after,
        r'.declarations name = before ++ e :: after ∧ Entity.Clashes before e) ∧
      (¬ Disputed r'.canon.2 name → r'.unified? name = r.unified? name) := by
  have settled : ∀ d ∈ r.declarations name, Grammar.IsSettled d.grammar.text := fun d member =>
    ⟨normal d member, Grammar.isSet_of_normal (normal d member),
      ne_of_beq_false (plain d member)⟩
  have same := perm_declarations moved name
  have unified := unified?_of_quiet quiet
  rw [disputed_iff] at quiet
  cases stands : Entity.settle? (r.declarations name) with
  | none =>
    have empty : r.declarations name = [] := not_not.mp fun declared => quiet ⟨declared, stands⟩
    have empty' : r'.declarations name = [] := List.perm_nil.mp (empty ▸ same)
    refine ⟨iff_of_false (fun disputed => (disputed_iff.mp disputed).1 empty') ?_, fun quiet' => ?_⟩
    · rintro ⟨before, e, after, split, -⟩
      simp [empty'] at split
    · rw [unified?_of_quiet quiet', unified, empty, empty']
  | some kept =>
    have declared : r'.declarations name ≠ [] := by
      intro empty'
      have empty : r.declarations name = [] := List.perm_nil.mp (empty' ▸ same.symm)
      rw [empty] at stands
      cases stands
    obtain ⟨clashes, alike⟩ := Entity.settle?_order same settled stands
    refine ⟨disputed_iff.trans ((and_iff_right declared).trans clashes), fun quiet' => ?_⟩
    cases stands' : Entity.settle? (r'.declarations name) with
    | none => exact absurd (disputed_iff.mpr ⟨declared, stands'⟩) quiet'
    | some kept' =>
      obtain ⟨text, set⟩ := (Grammar.beq_iff _ _).mp (alike kept' stands')
      rw [unified?_of_quiet quiet', unified, stands, stands', Option.map_some, Option.map_some, text,
        set]

/-- A family that declares copies. -/
def copiesOf (title grammar : String) : Family :=
  ⟨title, .ofList [{ name := "copies", grammar := Grammar.normalize grammar }]⟩

/-- An integer, before two integers with bounds. -/
def baseFirst : Table Family where
  toList :=
    [copiesOf "Printer Description" "integer", copiesOf "Job Status" "integer(1:MAX)",
     copiesOf "Job Template" "integer(0:MAX)"]
  distinct := by decide

/-- An integer, between two integers with bounds. -/
def baseBetween : Table Family where
  toList :=
    [copiesOf "Job Status" "integer(1:MAX)", copiesOf "Printer Description" "integer",
     copiesOf "Job Template" "integer(0:MAX)"]
  distinct := by decide

/-- An integer, after two integers with bounds. -/
def baseLast : Table Family where
  toList :=
    [copiesOf "Job Status" "integer(1:MAX)", copiesOf "Job Template" "integer(0:MAX)",
     copiesOf "Printer Description" "integer"]
  distinct := by decide

theorem perm_baseLast : baseLast.toList.Perm baseFirst.toList :=
  (List.perm_append_comm : ([_, _] ++ [_]).Perm ([_] ++ [_, _]))

theorem unifyFamilies_order_of_copies :
    ({ families := baseBetween } : Registry).unified? "copies" = some ("integer", false) ∧
      ∃ before e after, ({ families := baseLast } : Registry).declarations "copies" =
        before ++ e :: after ∧ Entity.Clashes before e := by
  let r : Registry := { families := baseFirst }
  have plain : ∀ d ∈ r.declarations "copies", d.grammar.isCollection = false := by decide
  have normal : ∀ d ∈ r.declarations "copies",
      (Grammar.normalize d.grammar.text).text = d.grammar.text := by
    decide
  have quiet : ¬ Disputed r.canon.2 "copies" := by decide
  have between : ({ families := baseBetween } : Registry).families.toList.Perm r.families.toList :=
    .swap _ _ _
  have last : ({ families := baseLast } : Registry).families.toList.Perm r.families.toList :=
    perm_baseLast
  constructor
  · rw [(unifyFamilies_order between plain normal quiet).2 (by decide)]
    decide
  · exact (unifyFamilies_order last plain normal quiet).1.mp (by decide)

/-- What the families agree on in one order they can dispute in another one. -/
theorem unifyFamilies_not_order : ¬ ∀ (r : Registry) (order : Table Family) (name : String),
    order.toList.Perm r.families.toList →
      (∀ d ∈ r.declarations name, d.grammar.isCollection = false) →
        ¬ Disputed r.canon.2 name →
          ¬ Disputed { r with families := order }.canon.2 name ∧
            { r with families := order }.unified? name = r.unified? name := by
  intro ordered
  have quiet := (ordered { families := baseFirst } baseLast "copies" perm_baseLast
    (by decide) (by decide)).1
  exact absurd (by decide) quiet

end Registry

end PrintRegistry
