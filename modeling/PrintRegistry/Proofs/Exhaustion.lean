import Mathlib.Data.List.Basic
import PrintRegistry.Proofs.Lookup

/-!
What a search passes over. A name that a search has seen is not looked at again, and names
are followed to a limit. A search that finds nothing has looked at every name that a step
leads to from a name it has seen, except where it came to that name with nothing left of
the limit. So it fails on a name only if every way to an answer has a name on it that was
first met there, at the end of a full-length way of other names that was tried before.
Such a name stays seen: a shorter way to it that is tried later is not followed.
-/

namespace PrintRegistry.Scope

/-- A name has a meaning that can be found without a further step. -/
def IsSettled (s : Scope) (name : String) : Prop :=
  match s.table.find? name with
  | some e => e.target? = none ∧ e.unreadable = false
  | none =>
    (∃ collection, .members collection ∈ Fallback.all s name) ∨
      ∃ other e, .entry other ∈ Fallback.all s name ∧ s.table.find? other = some e ∧
        e.unreadable = false

/-- A way of `limit` distinct names, none of them seen before or settled, leads from one
name to another, so that a search has no step left there. The list is what is left behind
before the last one. -/
structure Spends (s : Scope) (limit : Nat) (seen : List String) (name : String)
    (left : List String) (last : String) : Prop where
  way : Way s.Step name left last
  full : left.length + 1 = limit
  distinct : (left ++ [last]).Nodup
  fresh : ∀ x ∈ left ++ [last], x ∉ seen
  unsettled : ∀ x ∈ left ++ [last], ¬ s.IsSettled x

/-- A search from a name may meet another one as late as possible: at the end of as many
steps as it follows, through distinct names without a meaning of their own. -/
def MeetsLate (s : Scope) (name : String) (left : List String) (last : String) : Prop :=
  s.Spends (depthLimit + 1) [] name left last

/-- Two ways part at a name without an entry, and the conventions put the next name of the
first way before the next name of the second. -/
inductive TriedBefore (s : Scope) : List String → List String → Prop
  | parts {name next other : String} (first second : List String)
      (missing : s.table.find? name = none)
      (earlier : (Fallback.all s name).idxOf (.retry next) <
        (Fallback.all s name).idxOf (.retry other)) :
      TriedBefore s (name :: next :: first) (name :: other :: second)
  | later (name : String) {first second : List String} (rest : TriedBefore s first second) :
      TriedBefore s (name :: first) (name :: second)

/-- A name on a way, before the last one, is met first at the end of a way of `limit`
distinct names that is tried before. -/
def Misses (s : Scope) (limit : Nat) (seen : List String) (name : String)
    (left : List String) (last : String) : Prop :=
  ∃ m ∈ left, ∃ late, s.Spends limit seen name late m ∧
    s.TriedBefore (late ++ [m]) (left ++ [last])

/-- What is known of the names seen after `starts` have been looked up one after another
and nothing was found. -/
structure Exhausts (s : Scope) (starts : List String) (limit : Nat)
    (seen after : List String) : Prop where
  keeps : seen ⊆ after
  reaches : limit ≠ 0 → starts ⊆ after
  unsettled : ∀ m ∈ after, m ∉ seen → ¬ s.IsSettled m
  closed : ∀ m ∈ after, m ∉ seen → (∀ next, s.Step m next → next ∈ after) ∨
    ∃ start ∈ starts, ∃ left, s.Spends limit seen start left m

variable {s : Scope} {name next last : String} {e : Entity} {limit : Nat}
  {seen middle after left : List String}

theorem step_of_entry (entry : s.table.find? name = some e) :
    s.Step name next ↔ e.target? = some next := by
  simp [Step, Shares, Retries, entry]

theorem step_of_missing (missing : s.table.find? name = none) :
    s.Step name next ↔ .retry next ∈ Fallback.all s name := by
  simp [Step, Shares, Retries, missing]

namespace Spends

theorem mono (h : s.Spends limit middle name left last) (more : seen ⊆ middle) :
    s.Spends limit seen name left last where
  way := h.way
  full := h.full
  distinct := h.distinct
  fresh x member old := h.fresh x member (more old)
  unsettled := h.unsettled

theorem here (new : name ∉ seen) (unsettled : ¬ s.IsSettled name) :
    s.Spends 1 seen name [] name where
  way := .stay name
  full := rfl
  distinct := List.pairwise_singleton _ name
  fresh := List.forall_mem_singleton.mpr new
  unsettled := List.forall_mem_singleton.mpr unsettled

theorem further (new : name ∉ seen) (unsettled : ¬ s.IsSettled name) (first : s.Step name next)
    (rest : s.Spends limit (name :: seen) next left last) :
    s.Spends (limit + 1) seen name (name :: left) last where
  way := .go first rest.way
  full := congrArg Nat.succ rest.full
  distinct := List.nodup_cons.mpr
    ⟨fun again => rest.fresh name again List.mem_cons_self, rest.distinct⟩
  fresh := List.forall_mem_cons.mpr
    ⟨new, fun x member old => rest.fresh x member (List.mem_cons_of_mem name old)⟩
  unsettled := List.forall_mem_cons.mpr ⟨unsettled, rest.unsettled⟩

end Spends

namespace Misses

theorem mono (h : s.Misses limit middle name left last) (more : seen ⊆ middle) :
    s.Misses limit seen name left last := by
  obtain ⟨m, member, late, spent, tried⟩ := h
  exact ⟨m, member, late, spent.mono more, tried⟩

theorem further (new : name ∉ seen) (unsettled : ¬ s.IsSettled name) (first : s.Step name next)
    (rest : s.Misses limit (name :: seen) next left last) :
    s.Misses (limit + 1) seen name (name :: left) last := by
  obtain ⟨m, member, late, spent, tried⟩ := rest
  exact ⟨m, List.mem_cons_of_mem name member, name :: late, spent.further new unsettled first,
    .later name tried⟩

end Misses

namespace Exhausts

variable {starts nexts : List String}

theorem unchanged (met : limit ≠ 0 → starts ⊆ seen) : s.Exhausts starts limit seen seen where
  keeps := List.Subset.refl seen
  reaches := met
  unsettled _ old new := absurd old new
  closed _ old new := absurd old new

theorem cons (first : s.Exhausts [next] limit seen middle)
    (rest : s.Exhausts nexts limit middle after) : s.Exhausts (next :: nexts) limit seen after where
  keeps := List.Subset.trans first.keeps rest.keeps
  reaches some := by
    have start : next ∈ middle := first.reaches some List.mem_cons_self
    exact List.cons_subset.mpr ⟨rest.keeps start, rest.reaches some⟩
  unsettled m member new := by
    by_cases early : m ∈ middle
    · exact first.unsettled m early new
    · exact rest.unsettled m member early
  closed m member new := by
    by_cases early : m ∈ middle
    · rcases first.closed m early new with done | ⟨start, known, left, spent⟩
      · exact Or.inl fun other step => rest.keeps (done other step)
      · obtain rfl := List.mem_singleton.mp known
        exact Or.inr ⟨start, List.mem_cons_self, left, spent⟩
    · rcases rest.closed m member early with done | ⟨start, known, left, spent⟩
      · exact Or.inl done
      · exact Or.inr ⟨start, List.mem_cons_of_mem next known, left, spent.mono first.keeps⟩

/-- A name without a meaning of its own is exhausted once all names are that a step leads
to from it. -/
theorem visit (new : name ∉ seen) (unsettled : ¬ s.IsSettled name)
    (steps : ∀ next, s.Step name next ↔ next ∈ nexts)
    (inner : s.Exhausts nexts limit (name :: seen) after) :
    s.Exhausts [name] (limit + 1) seen after where
  keeps := fun _ old => inner.keeps (List.mem_cons_of_mem name old)
  reaches _ := List.cons_subset.mpr ⟨inner.keeps List.mem_cons_self, List.nil_subset after⟩
  unsettled m member fresh := by
    by_cases same : m = name
    · exact same ▸ unsettled
    · exact inner.unsettled m member (by simp [same, fresh])
  closed m member fresh := by
    by_cases same : m = name
    · subst same
      -- Where no step is left, the name itself is the last one on its way.
      cases limit with
      | zero => exact Or.inr ⟨m, List.mem_cons_self, [], .here new unsettled⟩
      | succ limit =>
        exact Or.inl fun next step =>
          inner.reaches (Nat.succ_ne_zero limit) ((steps next).mp step)
    · rcases inner.closed m member (by simp [same, fresh]) with done | ⟨start, known, left, spent⟩
      · exact Or.inl done
      · exact Or.inr ⟨name, List.mem_cons_self, name :: left,
          spent.further new unsettled ((steps start).mpr known)⟩

/-- A way with a name on it that the search has met is followed to its end, unless it goes
on from a name where no step was left. -/
theorem mem_of_way (h : s.Exhausts starts limit seen after) (way : Way s.Step name left last)
    (fresh : ∀ x ∈ left ++ [last], x ∉ seen) (met : ∃ x ∈ left ++ [last], x ∈ after) :
    last ∈ after ∨ ∃ m ∈ left, ∃ start ∈ starts, ∃ late, s.Spends limit seen start late m := by
  induction way with
  | stay name => exact Or.inl (by simpa using met)
  | @go name next last left first rest ih =>
    obtain ⟨new, fresh⟩ := List.forall_mem_cons.mp fresh
    have further : (∃ x ∈ left ++ [last], x ∈ after) →
        last ∈ after ∨ ∃ m ∈ name :: left, ∃ start ∈ starts, ∃ late,
          s.Spends limit seen start late m := by
      intro met
      rcases ih fresh met with done | ⟨m, member, spent⟩
      · exact Or.inl done
      · exact Or.inr ⟨m, List.mem_cons_of_mem name member, spent⟩
    obtain ⟨x, member, known⟩ := met
    rcases List.mem_cons.mp member with rfl | member
    · rcases h.closed x known new with done | spent
      · exact further ⟨next, rest.start_mem, done next first⟩
      · exact Or.inr ⟨x, List.mem_cons_self, spent⟩
    · exact further ⟨x, member, known⟩

end Exhausts

/-- The other names that fallbacks propose. -/
def retried (fallbacks : List Fallback) : List String :=
  fallbacks.filterMap fun
    | .retry name => some name
    | _ => none

theorem mem_retried {fallbacks : List Fallback} :
    name ∈ retried fallbacks ↔ .retry name ∈ fallbacks := by
  rw [retried, List.mem_filterMap]
  constructor
  · rintro ⟨fallback, member, same⟩
    cases fallback <;> cases same
    exact member
  · exact fun member => ⟨_, member, rfl⟩

/-- Fallbacks that lead nowhere exhaust the names they propose, and no other one of them has
a meaning. -/
theorem exhausts_firstResolved {search : String → List String → Option Resolved × List String}
    (each : ∀ name seen after, search name seen = (none, after) →
      s.Exhausts [name] limit seen after)
    {fallbacks : List Fallback} (h : firstResolved s search fallbacks seen = (none, after)) :
    (∀ collection, .members collection ∉ fallbacks) ∧
      (∀ other e, .entry other ∈ fallbacks → s.table.find? other = some e → e.unreadable = true) ∧
      s.Exhausts (retried fallbacks) limit seen after := by
  induction fallbacks generalizing seen with
  | nil =>
    obtain ⟨-, rfl⟩ := Prod.mk.inj h
    exact ⟨by simp, by simp, .unchanged (by simp [retried])⟩
  | cons fallback rest ih =>
    cases fallback with
    | members collection => cases h
    | entry name =>
      rw [firstResolved] at h
      cases taken : (s.table.find? name).bind settle with
      | some answer => simp [taken] at h
      | none =>
        obtain ⟨others, entries, exhausted⟩ := ih (by simpa [taken] using h)
        refine ⟨by simpa using others, fun other e member entry => ?_, exhausted⟩
        rcases List.mem_cons.mp member with same | later
        · cases same
          rw [entry] at taken
          exact settle_eq_none_iff.mp taken
        · exact entries other e later entry
    | retry name =>
      rw [firstResolved] at h
      cases looked : search name seen with
      | mk result middle =>
        cases result with
        | some answer => simp [looked] at h
        | none =>
          obtain ⟨others, entries, exhausted⟩ := ih (by simpa [looked] using h)
          exact ⟨by simpa using others, by simpa using entries,
            (each name seen middle looked).cons exhausted⟩

/-- A search that finds nothing exhausts the name it is about. -/
theorem exhausts_search (limit : Nat) : ∀ name seen after,
    s.search limit name seen = (none, after) → s.Exhausts [name] limit seen after := by
  induction limit with
  | zero =>
    intro name seen after h
    obtain ⟨-, rfl⟩ := Prod.mk.inj h
    exact .unchanged (absurd rfl)
  | succ limit ih =>
    intro name seen after h
    rw [search] at h
    split at h
    · rename_i old
      obtain ⟨-, rfl⟩ := Prod.mk.inj h
      exact .unchanged fun _ => by simpa using old
    · rename_i new
      cases entry : s.table.find? name with
      | some e =>
        cases target : e.target? with
        | some next =>
          simp only [entry, target] at h
          refine .visit new (by simp [IsSettled, entry, target]) (fun other => ?_) (ih next _ _ h)
          rw [step_of_entry entry, target, Option.some.injEq, List.mem_singleton, eq_comm]
        | none =>
          simp only [entry, target] at h
          obtain ⟨settled, rfl⟩ := Prod.mk.inj h
          have unreadable : e.unreadable = true := settle_eq_none_iff.mp settled
          refine .visit new (by simp [IsSettled, entry, unreadable]) (fun other => ?_)
            (.unchanged fun _ => List.nil_subset _)
          simp [step_of_entry entry, target]
      | none =>
        simp only [entry] at h
        obtain ⟨others, entries, exhausted⟩ := exhausts_firstResolved ih h
        refine .visit new ?_ (fun other => ?_) exhausted
        · rw [IsSettled, entry]
          rintro (⟨collection, proposed⟩ | ⟨other, e, proposed, known, readable⟩)
          · exact others collection proposed
          · rw [entries other e proposed known] at readable
            cases readable
        · rw [step_of_missing entry, mem_retried]

/-- Fallbacks that lead nowhere do so before a name is looked up, there and after it. -/
theorem firstResolved_split {search : String → List String → Option Resolved × List String}
    {before rest : List Fallback}
    (h : firstResolved s search (before ++ .retry next :: rest) seen = (none, after)) :
    ∃ middle inner, firstResolved s search before seen = (none, middle) ∧
      search next middle = (none, inner) ∧ firstResolved s search rest inner = (none, after) := by
  induction before generalizing seen with
  | nil =>
    rw [List.nil_append, firstResolved] at h
    cases looked : search next seen with
    | mk result inner =>
      cases result with
      | some answer => simp [looked] at h
      | none => exact ⟨seen, inner, rfl, looked, by simpa [looked] using h⟩
  | cons fallback before ih =>
    cases fallback with
    | members collection => cases h
    | entry name =>
      rw [List.cons_append, firstResolved] at h
      cases taken : (s.table.find? name).bind settle with
      | some answer => simp [taken] at h
      | none => simpa [firstResolved, taken] using ih (by simpa [taken] using h)
    | retry name =>
      rw [List.cons_append, firstResolved] at h
      cases looked : search name seen with
      | mk result middle =>
        cases result with
        | some answer => simp [looked] at h
        | none => simpa [firstResolved, looked] using ih (by simpa [looked] using h)

/-- Of two ways from a name without an entry, the one whose next name is proposed among
the earlier conventions is tried before the other. -/
theorem triedBefore_of_retried {late : List String} {before rest : List Fallback}
    {other m : String} (missing : s.table.find? name = none)
    (proposed : Fallback.all s name = before ++ .retry next :: rest)
    (later : .retry next ∉ before) (earlier : .retry other ∈ before)
    (first : Way s.Step other late m) (second : Way s.Step next left last) :
    s.TriedBefore (name :: late ++ [m]) (name :: left ++ [last]) := by
  obtain ⟨names, eq⟩ := first.exists_eq_cons
  obtain ⟨others, eq'⟩ := second.exists_eq_cons
  rw [List.cons_append, List.cons_append, eq, eq']
  refine .parts names others missing ?_
  have firstIndex : before.idxOf (.retry other) < before.length :=
    List.idxOf_lt_length_of_mem earlier
  rw [proposed, List.idxOf_append_of_mem earlier, List.idxOf_append_of_notMem later,
    List.idxOf_cons_self]
  exact firstIndex

/-- A search that finds nothing comes to the end of every way of fewer names than its
limit, unless it misses it for a way that is tried before. -/
theorem search_meets (way : Way s.Step name left last) (short : left.length < limit)
    (distinct : (left ++ [last]).Nodup) (fresh : ∀ x ∈ left ++ [last], x ∉ seen)
    (h : s.search limit name seen = (none, after)) :
    last ∈ after ∨ s.Misses limit seen name left last := by
  -- Along the way: as long as nothing on it has been seen, it is searched name by name.
  induction way generalizing limit seen after with
  | stay name =>
    have exhausted := exhausts_search limit name seen after h
    exact Or.inl (exhausted.reaches (Nat.ne_zero_of_lt short) List.mem_cons_self)
  | @go name next last left first rest ih =>
    obtain ⟨limit, rfl⟩ := Nat.exists_eq_succ_of_ne_zero (Nat.ne_zero_of_lt short)
    obtain ⟨new, old⟩ := List.forall_mem_cons.mp fresh
    obtain ⟨once, distinct⟩ := List.nodup_cons.mp distinct
    have exhausted := exhausts_search _ name seen after h
    have unsettled : ¬ s.IsSettled name := exhausted.unsettled name
      (exhausted.reaches (Nat.succ_ne_zero limit) List.mem_cons_self) new
    have fresh : ∀ x ∈ left ++ [last], x ∉ name :: seen := fun x member =>
      List.not_mem_cons_of_ne_of_not_mem (fun same => once (same ▸ member)) (old x member)
    have short : left.length < limit := Nat.lt_of_succ_lt_succ short
    rw [search, if_neg new] at h
    rcases first with ⟨e, entry, target⟩ | ⟨missing, proposed⟩
    · simp only [entry, target] at h
      exact (ih short distinct fresh h).imp_right
        (.further new unsettled (Or.inl ⟨e, entry, target⟩))
    · simp only [missing] at h
      obtain ⟨before, others, eq, later⟩ := List.eq_append_cons_of_mem proposed
      rw [eq] at h
      obtain ⟨middle, inner, failed, looked, ended⟩ := firstResolved_split h
      have tried := (exhausts_firstResolved (exhausts_search limit) failed).2.2
      have passed := exhausts_search limit next middle inner looked
      have kept := (exhausts_firstResolved (exhausts_search limit) ended).2.2.keeps
      by_cases met : ∃ x ∈ left ++ [last], x ∈ middle
      · -- The names tried before `next` lead to a name on the way.
        rcases tried.mem_of_way rest fresh met with done | ⟨m, member, start, known, late, spent⟩
        · exact Or.inl (kept (passed.keeps done))
        · have earlier := mem_retried.mp known
          have step : s.Step name start :=
            (step_of_missing missing).mpr (eq ▸ List.mem_append_left _ earlier)
          exact Or.inr ⟨m, List.mem_cons_of_mem name member, name :: late,
            spent.further new unsettled step,
            triedBefore_of_retried missing eq later earlier spent.way rest⟩
      · -- They lead to none, so the way is as new to the search from `next`.
        rcases ih short distinct (fun x member known => met ⟨x, member, known⟩) looked with
          done | missed
        · exact Or.inl (kept done)
        · exact Or.inr ((missed.mono tried.keeps).further new unsettled
            (Or.inr ⟨missing, proposed⟩))

/-- A name with a way of distinct names to a settled one, as long as a search may follow
or shorter, means something, unless a name on it before the settled one is met late on a
way that is tried before. -/
theorem resolve_isSome_of_way (way : Way s.Step name left last)
    (distinct : (left ++ [last]).Nodup) (short : left.length ≤ depthLimit)
    (settled : s.IsSettled last)
    (early : ∀ m ∈ left, ∀ late, s.MeetsLate name late m →
      ¬ s.TriedBefore (late ++ [m]) (left ++ [last])) :
    (s.resolve name).isSome = true := by
  rw [Option.isSome_iff_ne_none]
  intro failed
  have looked : s.search (depthLimit + 1) name [] =
    (none, (s.search (depthLimit + 1) name []).2) := Prod.ext failed rfl
  rcases search_meets way (Nat.lt_succ_of_le short) distinct (fun _ _ => List.not_mem_nil) looked
    with met | ⟨m, member, late, spent, tried⟩
  · exact (exhausts_search _ name [] _ looked).unsettled last met List.not_mem_nil settled
  · exact early m member late spent tried

/-- The state of the documents of a job is looked for among all document states first, and
found there in three steps. The states of the documents of a job lead to `x` as well, in
sixteen, but they are tried later. -/
theorem resolve_isSome_of_way_to_document_state :
    let chain := ["job-document-states", "a", "b", "c", "d", "e", "f", "g", "h", "i", "j", "k",
      "l", "m", "n", "x", "y"]
    let s : Scope := {
      table := .ofList (.keyword "document-state" (some (.byName "x")) :: .keyword "y" none ::
        chain.zipWith (fun name next => .keyword name (some (.byName next))) chain.tail)
      isCollection := fun _ => false }
    let left := ["job-document-state", "document-state", "x"]
    Way s.Step "job-document-state" left "y" ∧ left.length ≤ depthLimit ∧ s.IsSettled "y" ∧
      (s.resolve "job-document-state").isSome = true := by
  intro chain s left
  have state : s.Step "job-document-state" "document-state" := Or.inr ⟨rfl, by decide⟩
  have shared : s.Step "document-state" "x" := Or.inl ⟨_, rfl, rfl⟩
  have last : s.Step "x" "y" := Or.inl ⟨_, rfl, rfl⟩
  have way : Way s.Step "job-document-state" left "y" :=
    .go state (.go shared (.go last (.stay "y")))
  have settled : s.IsSettled "y" := ⟨rfl, rfl⟩
  refine ⟨way, by decide, settled,
    resolve_isSome_of_way way (by decide) (by decide) settled fun m _ late _ tried => ?_⟩
  have first : (Fallback.all s "job-document-state").idxOf (.retry "document-state") = 0 := rfl
  have tried : s.TriedBefore (late ++ [m]) ["job-document-state", "document-state", "x", "y"] :=
    tried
  generalize late ++ [m] = names at tried
  -- No convention comes before the one for document states, and the names after that have
  -- entries, so that no way parts there.
  cases tried with
  | parts _ _ missing earlier => exact Nat.not_lt_zero _ (first ▸ earlier)
  | later _ tried =>
    cases tried with
    | parts _ _ missing => cases missing
    | later _ tried =>
      cases tried with
      | parts _ _ missing => cases missing
      | later _ tried => cases tried with | later _ tried => cases tried

/-- The state of the documents of a job is looked for among all document states first. That
leads to the attribute `x` in sixteen steps, with none left for `y`. The states of the
documents of a job share the values of `x` too, but `x` has been seen. -/
theorem resolve_not_isSome_of_way :
    ¬ ∀ (s : Scope) (name : String) (left : List String) (last : String),
      Way s.Step name left last → left.length ≤ depthLimit → s.IsSettled last →
        (s.resolve name).isSome = true := by
  intro complete
  let chain := ["document-state", "a", "b", "c", "d", "e", "f", "g", "h", "i", "j", "k", "l",
    "m", "n", "x", "y"]
  let s : Scope := {
    table := .ofList (.keyword "job-document-states" (some (.byName "x")) :: .keyword "y" none ::
      chain.zipWith (fun name next => .keyword name (some (.byName next))) chain.tail)
    isCollection := fun _ => false }
  have states : s.Step "job-document-state" "job-document-states" := Or.inr ⟨rfl, by decide⟩
  have shared : s.Step "job-document-states" "x" := Or.inl ⟨_, rfl, rfl⟩
  have last : s.Step "x" "y" := Or.inl ⟨_, rfl, rfl⟩
  have found := complete s _ _ _ (.go states (.go shared (.go last (.stay "y")))) (by decide)
    ⟨rfl, rfl⟩
  have lost : (s.resolve "job-document-state").isSome = false := by decide
  rw [lost] at found
  cases found

end PrintRegistry.Scope
