import PrintRegistry.Corpus
import PrintRegistry.Proofs.Text
import Mathlib.Data.List.Basic

/-!
Loading record files. Everything that can fail about a file fails before the corpus is changed,
so that a run of calls leaves the records of the files that could be read, one after another, and
nothing of the others. The files under a directory are read in the order of their paths, whatever
order they are found in. They are all found first: a link that leads nowhere or a directory that
cannot be listed ends the search, and nothing is loaded then, though every file may be sound.
-/

namespace PrintRegistry.Corpus

/-- The records that a file holds, if it can be read and its text is one of records. -/
def recordsIn (content : Content) : Option Records :=
  content.text.toOption.bind fun text => (Records.ofText text).toOption

/-- Reads a file into the corpus, one change after another. -/
def loadFile (path : String) (content : Content) : ExceptT Failure (StateM Corpus) Unit := do
  let text ← ExceptT.mk (pure (content.text.mapError .file))
  let records ← ExceptT.mk (pure ((Records.ofText text).mapError (.unreadableRecords path)))
  modify fun c => { c with records := c.records.merge records }
  modify fun c => { c with files := c.files ++ [path] }

/-- Reads files into the corpus and goes on after those that fail. -/
def loadAll : List (String × Content) → StateM Corpus (List (Except Failure Unit))
  | [] => return []
  | (path, content) :: calls => do
    let outcome ← (loadFile path content).run
    let outcomes ← loadAll calls
    return outcome :: outcomes

/-- The files of some calls that hold records, with their records. -/
def loaded (calls : List (String × Content)) : List (String × Records) :=
  calls.filterMap fun call => (recordsIn call.2).map (call.1, ·)

/-- A corpus after some files were added to it. Lists of records are put together, and the first
date there is is kept. -/
structure Extends (c : Corpus) (loaded : List (String × Records)) (after : Corpus) : Prop where
  files : after.files = c.files ++ loaded.map (·.1)
  updated : after.records.updated = c.records.updated.or (loaded.findSome? (·.2.updated))
  enums : after.records.enums = c.records.enums ++ loaded.flatMap (·.2.enums)
  keywords : after.records.keywords = c.records.keywords ++ loaded.flatMap (·.2.keywords)
  attributes : after.records.attributes = c.records.attributes ++ loaded.flatMap (·.2.attributes)
  statusCodes : after.records.statusCodes =
    c.records.statusCodes ++ loaded.flatMap (·.2.statusCodes)

/-- The files that a walk comes upon. -/
def filesMet (walk : Walk) : List StoredFile :=
  walk.filterMap Except.toOption

variable {c after : Corpus} {path : String} {content : Content} {r : Records}
  {files : List StoredFile} {walk : Walk}

/-! ### One file -/

theorem add_of_recordsIn (held : recordsIn content = some r) (path : String) (c : Corpus) :
    c.add path content = .ok ⟨c.files ++ [path], c.records.merge r⟩ := by
  rw [recordsIn] at held
  rw [add]
  cases read : content.text with
  | error fault =>
    rw [read] at held
    cases held
  | ok text =>
    rw [read] at held
    change (Records.ofText text).toOption = some r at held
    cases parsed : Records.ofText text with
    | error fault =>
      rw [parsed] at held
      cases held
    | ok records =>
      rw [parsed] at held
      cases held
      simp only [parsed]

theorem add_of_none (held : recordsIn content = none) (path : String) :
    ∃ failure, ∀ c : Corpus, c.add path content = .error failure := by
  rw [recordsIn] at held
  cases read : content.text with
  | error fault => exact ⟨_, fun c => by rw [add, read]⟩
  | ok text =>
    rw [read] at held
    change (Records.ofText text).toOption = none at held
    cases parsed : Records.ofText text with
    | error fault =>
      exact ⟨.unreadableRecords path fault, fun c => by simp only [add, read, parsed]⟩
    | ok records =>
      rw [parsed] at held
      cases held

/-- Reading a file changes the corpus as a whole or not at all. -/
theorem run_loadFile (path : String) (content : Content) (c : Corpus) :
    (loadFile path content).run.run c =
      match c.add path content with
      | .ok after => (.ok (), after)
      | .error failure => (.error failure, c) := by
  rw [add]
  cases read : content.text with
  | error fault =>
    simp only [loadFile, read]
    rfl
  | ok text =>
    cases parsed : Records.ofText text <;>
    · simp only [loadFile, read, Except.mapError]
      change StateT.run (ExceptT.run
        (ExceptT.mk (pure ((Records.ofText text).mapError _)) >>= _)) _ = _
      rw [parsed]
      rfl

/-! ### Runs -/

theorem extends_nil (c : Corpus) : Extends c [] c where
  files := (List.append_nil _).symm
  updated := (Option.or_none).symm
  enums := (List.append_nil _).symm
  keywords := (List.append_nil _).symm
  attributes := (List.append_nil _).symm
  statusCodes := (List.append_nil _).symm

/-- One more file, read before the others. -/
theorem extends_cons {rest : List (String × Records)}
    (extended : Extends ⟨c.files ++ [path], c.records.merge r⟩ rest after) :
    Extends c ((path, r) :: rest) after where
  files := by rw [extended.files, List.append_assoc]; rfl
  updated := by
    rw [extended.updated, Records.merge, Option.or_assoc, List.findSome?_cons]
    cases r.updated <;> rfl
  enums := by rw [extended.enums, Records.merge, List.append_assoc]; rfl
  keywords := by rw [extended.keywords, Records.merge, List.append_assoc]; rfl
  attributes := by rw [extended.attributes, Records.merge, List.append_assoc]; rfl
  statusCodes := by rw [extended.statusCodes, Records.merge, List.append_assoc]; rfl

theorem run_loadAll_cons (path : String) (content : Content) (calls : List (String × Content))
    (c : Corpus) : (loadAll ((path, content) :: calls)).run c =
      let first := (loadFile path content).run.run c
      let rest := (loadAll calls).run first.2
      (first.1 :: rest.1, rest.2) := rfl

theorem run_loadAll_of_some (held : recordsIn content = some r) (path : String)
    (calls : List (String × Content)) (c : Corpus) :
    (loadAll ((path, content) :: calls)).run c =
      let rest := (loadAll calls).run ⟨c.files ++ [path], c.records.merge r⟩
      (.ok () :: rest.1, rest.2) := by
  rw [run_loadAll_cons, run_loadFile, add_of_recordsIn held]

theorem run_loadAll_of_none (held : recordsIn content = none) (path : String)
    (calls : List (String × Content)) (c : Corpus) : ∃ failure,
    (loadAll ((path, content) :: calls)).run c =
      let rest := (loadAll calls).run c
      (.error failure :: rest.1, rest.2) := by
  obtain ⟨failure, failed⟩ := add_of_none held path
  exact ⟨failure, by rw [run_loadAll_cons, run_loadFile, failed]⟩

theorem loaded_cons (path : String) (content : Content) (calls : List (String × Content)) :
    loaded ((path, content) :: calls) =
      ((recordsIn content).map (path, ·)).toList ++ loaded calls := by
  rw [loaded, List.filterMap_cons]
  dsimp only
  cases recordsIn content <;> rfl

/-- A run leaves the records of the files that hold some, and says of which calls they are. -/
theorem run_loadAll (calls : List (String × Content)) (c : Corpus) :
    ((loadAll calls).run c).1.map Except.isOk = calls.map (fun call => (recordsIn call.2).isSome) ∧
      Extends c (loaded calls) ((loadAll calls).run c).2 := by
  induction calls generalizing c with
  | nil => exact ⟨rfl, extends_nil c⟩
  | cons call calls ih =>
    obtain ⟨path, content⟩ := call
    rw [loaded_cons, List.map_cons]
    cases held : recordsIn content with
    | none =>
      obtain ⟨failure, run⟩ := run_loadAll_of_none held path calls c
      obtain ⟨outcomes, extended⟩ := ih c
      rw [run, ← outcomes]
      exact ⟨rfl, extended⟩
    | some r =>
      obtain ⟨outcomes, extended⟩ := ih ⟨c.files ++ [path], c.records.merge r⟩
      rw [run_loadAll_of_some held, ← outcomes]
      exact ⟨rfl, extends_cons extended⟩

/-- Reading files until one fails comes to an end exactly if none does, and then to what a run
comes to. -/
theorem foldlM_add_eq_ok (calls : List (String × Content)) (c after : Corpus) :
    calls.foldlM (fun c call => c.add call.1 call.2) c = .ok after ↔
      (∀ call ∈ calls, (recordsIn call.2).isSome = true) ∧ ((loadAll calls).run c).2 = after := by
  induction calls generalizing c with
  | nil =>
    constructor
    · rintro ⟨⟩
      exact ⟨nofun, rfl⟩
    · rintro ⟨-, rfl⟩
      rfl
  | cons call calls ih =>
    obtain ⟨path, content⟩ := call
    rw [List.foldlM_cons, List.forall_mem_cons]
    cases held : recordsIn content with
    | none =>
      obtain ⟨failure, failed⟩ := add_of_none held path
      rw [failed]
      exact ⟨nofun, fun ⟨⟨holds, _⟩, _⟩ => Bool.noConfusion holds⟩
    | some r =>
      rw [add_of_recordsIn held, run_loadAll_of_some held]
      refine (ih _).trans (and_congr_left' ?_)
      exact ⟨fun rest => ⟨rfl, rest⟩, And.right⟩

/-! ### Directories -/

theorem isRecordName_iff {name : String} :
    isRecordName name = true ↔ ∃ stem : String, stem ≠ "" ∧ name = stem ++ ".json" := by
  rw [isRecordName]
  cases ended : Text.withoutEnding? name ".json" with
  | none =>
    refine ⟨nofun, ?_⟩
    rintro ⟨stem, -, rfl⟩
    rw [Text.withoutEnding?_append] at ended
    cases ended
  | some start =>
    obtain rfl := Text.withoutEnding?_eq_some_iff.mp ended
    simp only [Bool.not_eq_true', String.isEmpty_eq_false_iff]
    refine ⟨fun some => ⟨start, some, rfl⟩, ?_⟩
    rintro ⟨stem, some, same⟩
    rw [same, Text.withoutEnding?_append] at ended
    cases ended
    exact some

example : isRecordName ".json" = false := by decide

theorem isRecordFile_iff {f : StoredFile} : isRecordFile f = true ↔
    ∃ stem : String, stem ≠ "" ∧ f.location.getLast? = some (stem ++ ".json") := by
  rw [isRecordFile]
  cases f.location.getLast? with
  | none => simp
  | some name => simp [isRecordName_iff]

/-- The files under a directory as they are read. -/
def callsUnder (directory : String) (files : List StoredFile) : List (String × Content) :=
  files.map fun f => (pathUnder directory f.location, f.content)

theorem mem_filesMet {f : StoredFile} : f ∈ filesMet walk ↔ .ok f ∈ walk := by
  rw [filesMet, List.mem_filterMap]
  constructor
  · rintro ⟨found, member, same⟩
    cases found with
    | error fault => cases same
    | ok g =>
      cases same
      exact member
  · exact fun member => ⟨_, member, rfl⟩

/-- A walk comes to its end if it meets no fault, and then with the files that it comes upon. -/
theorem mapM_id_eq_ok :
    walk.mapM id = .ok files ↔ (∀ fault, .error fault ∉ walk) ∧ filesMet walk = files := by
  induction walk generalizing files with
  | nil =>
    rw [List.mapM_nil]
    constructor
    · rintro ⟨⟩
      exact ⟨nofun, rfl⟩
    · rintro ⟨-, rfl⟩
      rfl
  | cons found walk ih =>
    rw [List.mapM_cons]
    cases found with
    | error fault => exact ⟨nofun, fun ⟨quiet, _⟩ => absurd List.mem_cons_self (quiet fault)⟩
    | ok f =>
      have step : filesMet (.ok f :: walk) = f :: filesMet walk := rfl
      simp only [List.mem_cons, reduceCtorEq, false_or, step]
      cases rest : walk.mapM id with
      | error fault =>
        refine ⟨nofun, fun ⟨quiet, _⟩ => ?_⟩
        cases rest.symm.trans (ih.mpr ⟨quiet, rfl⟩)
      | ok others =>
        obtain ⟨quiet, rfl⟩ := ih.mp rest
        constructor
        · rintro ⟨⟩
          exact ⟨quiet, rfl⟩
        · rintro ⟨-, rfl⟩
          rfl

theorem foldlM_recordFiles_eq_ok :
    (recordFiles files).foldlM (fun (c : Corpus) f => c.add (pathUnder path f.location) f.content)
        {} = .ok c ↔
      (∀ f ∈ files, isRecordFile f = true → (recordsIn f.content).isSome = true) ∧
        ((loadAll (callsUnder path (recordFiles files))).run {}).2 = c := by
  have calls := foldlM_add_eq_ok (callsUnder path (recordFiles files)) {} c
  rw [callsUnder, List.foldlM_map] at calls
  refine calls.trans (and_congr_left' ?_)
  simp only [List.forall_mem_map, recordFiles, List.mem_mergeSort, List.mem_filter, and_imp]

theorem load_directory_eq_ok : load path (.directory walk) = .ok c ↔
    (∀ fault, .error fault ∉ walk) ∧
      (∀ f ∈ filesMet walk, isRecordFile f = true → (recordsIn f.content).isSome = true) ∧
      ((loadAll (callsUnder path (recordFiles (filesMet walk)))).run {}).2 = c := by
  rw [load]
  cases ended : walk.mapM id with
  | error fault =>
    refine ⟨nofun, fun ⟨quiet, _⟩ => ?_⟩
    cases ended.symm.trans (mapM_id_eq_ok.mpr ⟨quiet, rfl⟩)
  | ok files =>
    obtain ⟨quiet, rfl⟩ := mapM_id_eq_ok.mp ended
    exact foldlM_recordFiles_eq_ok.trans ⟨fun loads => ⟨quiet, loads⟩, And.right⟩

/-- The first of two different locations, name by name. -/
def IsBefore (a b : StoredFile) : Prop :=
  List.Lex (· < ·) a.location b.location

theorem isBefore_iff {a b : StoredFile} : a.location.lex b.location = true ↔ IsBefore a b := by
  rw [List.lex_eq_true_iff_lex]
  simp only [decide_eq_true_eq, IsBefore]

theorem isBefore_asymm {a b : StoredFile} (before : IsBefore a b) : ¬ IsBefore b a :=
  List.lt_asymm before

theorem isBefore_of_not {a b : StoredFile} (different : a.location ≠ b.location)
    (after : ¬ IsBefore b a) : IsBefore a b := by
  by_contra before
  exact different (List.le_antisymm after before)

/-- The record files stand in the order of their locations. -/
theorem isBefore_recordFiles (distinct : (files.map (·.location)).Nodup) :
    (recordFiles files).Pairwise IsBefore := by
  have sorted : (recordFiles files).Pairwise fun a b => !b.location.lex a.location := by
    refine List.pairwise_mergeSort (fun a b c ab bc => ?_) (fun a b => ?_) _
    · rw [Bool.not_eq_true', ← Bool.not_eq_true, isBefore_iff] at ab bc ⊢
      exact List.le_trans ab bc
    · rw [Bool.or_eq_true, Bool.not_eq_true', Bool.not_eq_true', ← Bool.not_eq_true,
        ← Bool.not_eq_true, isBefore_iff, isBefore_iff]
      exact List.le_total a.location b.location
  have distinct : (recordFiles files).Pairwise fun a b => a.location ≠ b.location := by
    have filtered : (files.filter isRecordFile).Pairwise fun a b => a.location ≠ b.location :=
      (List.pairwise_map.mp distinct).sublist List.filter_sublist
    exact (List.mergeSort_perm _ _).symm.pairwise filtered fun different => different.symm
  refine sorted.imp₂ (fun a b ordered different => isBefore_of_not different ?_) distinct
  rw [Bool.not_eq_true', ← Bool.not_eq_true, isBefore_iff] at ordered
  exact ordered

/-- There is one such order. -/
theorem eq_of_isBefore {others : List StoredFile} (ordered : files.Pairwise IsBefore)
    (ordered' : others.Pairwise IsBefore) (permuted : files.Perm others) : files = others :=
  permuted.eq_of_pairwise (fun _ _ _ _ before after => (isBefore_asymm before after).elim) ordered
    ordered'

theorem recordFiles_perm {others : List StoredFile} (permuted : others.Perm files)
    (distinct : (files.map (·.location)).Nodup) : recordFiles others = recordFiles files := by
  have distinct' := (permuted.map (·.location)).nodup_iff.mpr distinct
  refine eq_of_isBefore (isBefore_recordFiles distinct') (isBefore_recordFiles distinct) ?_
  exact (List.mergeSort_perm _ _).trans ((permuted.filter _).trans (List.mergeSort_perm _ _).symm)

/-- Loading is all or nothing, and in order. A call that fails leaves the corpus as it was. After
any run of calls the corpus has the files of those that succeeded, which are those whose file is
read and holds records, with the records of these files put together in the order of the calls.
Under a directory the record files are those with the ending `.json` after something else. If the
walk through the directory meets no fault and all of them can be read and hold records, and only
then, the directory is loaded, to what a run of calls for them in ascending order of their
locations comes to, whatever order they are found in. -/
theorem loads_whole_files_in_order :
    (∀ (c : Corpus) (path : String) (content : Content) (failure : Failure),
      ((loadFile path content).run.run c).1 = .error failure →
        ((loadFile path content).run.run c).2 = c) ∧
    (∀ (c : Corpus) (calls : List (String × Content)),
      ((loadAll calls).run c).1.map Except.isOk =
        calls.map (fun call => (recordsIn call.2).isSome) ∧
      Extends c (loaded calls) ((loadAll calls).run c).2) ∧
    ∀ (path : String) (walk : Walk), ((filesMet walk).map (·.location)).Nodup →
      ∃ ordered : List StoredFile, ordered.Perm ((filesMet walk).filter isRecordFile) ∧
        ordered.Pairwise IsBefore ∧ ∀ (walked : Walk) (c : Corpus), walked.Perm walk →
          (load path (.directory walked) = .ok c ↔
            (∀ fault, .error fault ∉ walk) ∧
            (∀ f, .ok f ∈ walk →
              (∃ stem : String, stem ≠ "" ∧ f.location.getLast? = some (stem ++ ".json")) →
              (recordsIn f.content).isSome = true) ∧
            ((loadAll (callsUnder path ordered)).run {}).2 = c) := by
  refine ⟨fun c path content failure failed => ?_, fun c calls => run_loadAll calls c,
    fun path walk distinct => ⟨recordFiles (filesMet walk), List.mergeSort_perm _ _,
      isBefore_recordFiles distinct, fun walked c permuted => ?_⟩⟩
  · rw [run_loadFile] at failed ⊢
    cases added : c.add path content with
    | ok after =>
      rw [added] at failed
      cases failed
    | error failure => rfl
  · have met : (filesMet walked).Perm (filesMet walk) := permuted.filterMap _
    rw [load_directory_eq_ok, recordFiles_perm met distinct]
    simp only [mem_filesMet, permuted.mem_iff, isRecordFile_iff]

/-- Two record files, one of them in a directory of its own, and a file that cannot be read. -/
def scattered : Walk :=
  [.ok ⟨["b.json"], .ok "[]".toUTF8⟩, .ok ⟨["a.txt"], .error .notText⟩,
    .ok ⟨["a", "z.json"], .ok "[]".toUTF8⟩]

/-- The file in the directory comes first, and the one that is no record file is not looked at. -/
theorem scattered_loaded : ((filesMet scattered).map (·.location)).Nodup ∧
    ∃ c, load "in" (.directory scattered) = .ok c ∧ c.files = ["in/a/z.json", "in/b.json"] := by
  have distinct : ((filesMet scattered).map (·.location)).Nodup := by decide
  obtain ⟨-, -, directories⟩ := loads_whole_files_in_order
  obtain ⟨ordered, permuted, before, loads⟩ := directories "in" scattered distinct
  let sorted : List StoredFile :=
    [⟨["a", "z.json"], .ok "[]".toUTF8⟩, ⟨["b.json"], .ok "[]".toUTF8⟩]
  have same : ordered = sorted := by
    have first : IsBefore ⟨["a", "z.json"], .ok "[]".toUTF8⟩ ⟨["b.json"], .ok "[]".toUTF8⟩ :=
      .rel (by decide)
    have before' : sorted.Pairwise IsBefore := List.pairwise_pair.mpr first
    exact eq_of_isBefore before before' (permuted.trans (.swap _ _ _))
  rw [same] at loads
  refine ⟨distinct, _, (loads scattered _ (.refl _)).mpr ⟨?_, ?_, rfl⟩, ?_⟩
  · simp [scattered]
  · simp only [← isRecordFile_iff, ← mem_filesMet]
    decide
  · decide

/-- A link that leads nowhere keeps a directory from being loaded that has no files to fail. -/
theorem not_loads_by_files : ¬ ∀ (path : String) (walk : Walk),
    ((filesMet walk).map (·.location)).Nodup →
      ((∃ c, load path (.directory walk) = .ok c) ↔
        ∀ f ∈ filesMet walk, isRecordFile f = true → (recordsIn f.content).isSome = true) := by
  intro claimed
  obtain ⟨c, loads⟩ := (claimed "in" [.error (.onWalk "in/away" .notFound)] .nil).mpr nofun
  exact (load_directory_eq_ok.mp loads).1 _ List.mem_cons_self

end PrintRegistry.Corpus
