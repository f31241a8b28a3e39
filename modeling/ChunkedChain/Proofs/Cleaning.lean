import ChunkedChain.Proofs.FileNames
import ChunkedChain.Proofs.Listing
import ChunkedChain.Proofs.Removal
import ChunkedChain.Proofs.Writing

/-!
# What a cleanup removes

The targets of a cleanup are the document and, after a failure, the scripts of the chunk and of later
ones. They lie in directories that no removal takes away, so each of them meets the same fate as it
would alone. The scripts come in byte order, in whatever order the directory is listed.
-/

namespace ChunkedChain

namespace Cleanup

def staleNames (cleanup : Cleanup) (listed : List FileName) : List String :=
  (listed.filterMap FileName.text?).filter cleanup.isStale

/-- The name is that of an entry of the scripts directory, and the script is one of this chain on this
machine, for this chunk or a later one. -/
structure Stale (cleanup : Cleanup) (store : Store) (tree : FileTree) (name : String) : Prop where
  failed : cleanup.failed = true
  entry : ∃ dir, tree.locate store.scriptsDirectory = .ok dir ∧ tree.node? dir = some .directory ∧
    (tree.node? (dir ++ [FileName.ofString name])).isSome
  later : ∃ number, ScriptFile.chunk? name cleanup.chain cleanup.machine = some number ∧
    cleanup.chunk ≤ number

/-- What is reported if the scripts directory is there and cannot be listed. -/
def listingErrors (cleanup : Cleanup) (store : Store) (tree : FileTree) : List (FilePath × String) :=
  if cleanup.failed then
    match tree.list store.scriptsDirectory with
    | .ok _ => []
    | .error .notFound => []
    | .error e => [(store.scriptsDirectory, e.message)]
  else []

/-- The targets, with the scripts listed in any order and sorted by their names. -/
def targetsListed (cleanup : Cleanup) (store : Store) (listing : Except FileError (List FileName)) :
    List CleanupOutcome × List FilePath :=
  let document := store.chainsDirectory / cleanup.documentName
  if cleanup.failed then
    match listing with
    | .ok listed =>
      let sorted := (cleanup.staleNames listed).mergeSort
        fun a b => (compare (FileName.ofString a) (FileName.ofString b)).isLE
      ([], document :: sorted.map (store.scriptsDirectory / ·))
    | .error .notFound => ([], [document])
    | .error e => ([.unlisted store.scriptsDirectory e], [document])
  else ([], [document])

/-- The cleanup with the scripts listed in any order. -/
def reportListed (cleanup : Cleanup) (store : Store) (listing : Except FileError (List FileName))
    (tree : FileTree) : FileTree × CleanupReport :=
  if !isFileName cleanup.documentName then (tree, .of [.refused cleanup.documentName])
  else
    let (obstacles, paths) := cleanup.targetsListed store listing
    let (last, outcomes) := removeAll paths tree
    (last, .of (obstacles ++ outcomes))

/-- One listing is the other one in some order, or fails like it. -/
inductive Reordered : Except FileError (List FileName) → Except FileError (List FileName) → Prop where
  | ok {xs ys : List FileName} : xs.Perm ys → Reordered (.ok xs) (.ok ys)
  | error (e : FileError) : Reordered (.error e) (.error e)

theorem mem_staleNames {cleanup : Cleanup} {listed : List FileName} {name : String} :
    name ∈ cleanup.staleNames listed ↔
      FileName.ofString name ∈ listed ∧ cleanup.isStale name = true := by
  rw [staleNames, List.mem_filter, List.mem_filterMap]
  simp only [FileName.text?_eq_some, exists_eq_right']

theorem isStale_iff {cleanup : Cleanup} {name : String} :
    cleanup.isStale name = true ↔
      ∃ number, ScriptFile.chunk? name cleanup.chain cleanup.machine = some number ∧
        cleanup.chunk ≤ number := by
  rw [isStale, Option.any_eq_true]
  simp only [decide_eq_true_eq]

/-- The names to remove are sorted like the listing. -/
theorem staleNames_sorted {cleanup : Cleanup} {listed : List FileName}
    (sorted : listed.Pairwise FileName.Before) :
    (cleanup.staleNames listed).Pairwise fun a b =>
      FileName.Before (FileName.ofString a) (FileName.ofString b) := by
  refine List.Pairwise.filter _ ?_
  rw [List.pairwise_filterMap]
  refine sorted.imp ?_
  intro a b before name_a text_a name_b text_b
  rw [FileName.text?_eq_some.mp text_a, FileName.text?_eq_some.mp text_b]
  exact before

theorem staleNames_nodup {cleanup : Cleanup} {listed : List FileName}
    (sorted : listed.Pairwise FileName.Before) : (cleanup.staleNames listed).Nodup := by
  refine (staleNames_sorted sorted).imp ?_
  rintro a b before rfl
  exact before.ne rfl

/-- Sorting undoes every reordering of the listing. -/
theorem mergeSort_staleNames (cleanup : Cleanup) {listed names : List FileName}
    (same : listed.Perm names) (sorted : names.Pairwise FileName.Before) :
    ((cleanup.staleNames listed).mergeSort
      fun a b => (compare (FileName.ofString a) (FileName.ofString b)).isLE) =
      cleanup.staleNames names := by
  have stale_perm : (cleanup.staleNames listed).Perm (cleanup.staleNames names) :=
    (same.filterMap FileName.text?).filter cleanup.isStale
  refine List.Perm.eq_of_pairwise ?_ (List.pairwise_mergeSort ?_ ?_ _)
    ((staleNames_sorted sorted).imp ?_) ((List.mergeSort_perm _ _).trans stale_perm)
  · intro a b _ _ le ge
    exact FileName.ofString_injective
      (Std.LawfulEqOrd.compare_eq_iff_eq.mp (Std.OrientedCmp.isLE_antisymm le ge))
  · intro a b c le le'
    exact Std.TransCmp.isLE_trans le le'
  · intro a b
    rw [Bool.or_eq_true, ← Std.OrientedCmp.isGE_iff_isLE (a := FileName.ofString a)]
    cases compare (FileName.ofString a) (FileName.ofString b) <;> simp
  · intro a b before
    rw [before]
    rfl

theorem targetsListed_eq (cleanup : Cleanup) (store : Store) {tree : FileTree}
    {listing : Except FileError (List FileName)}
    (same : Reordered listing (tree.list store.scriptsDirectory)) :
    cleanup.targetsListed store listing = cleanup.targets store tree := by
  unfold targetsListed targets
  generalize listed : tree.list store.scriptsDirectory = result at same
  cases same with
  | error e => cases e <;> rfl
  | ok perm =>
    obtain ⟨dir, -, -, rfl⟩ := FileTree.list_eq_ok.mp listed
    dsimp only
    rw [mergeSort_staleNames cleanup perm (tree.names_sorted dir)]
    rfl

theorem reportListed_eq (cleanup : Cleanup) (store : Store) {tree : FileTree}
    {listing : Except FileError (List FileName)}
    (same : Reordered listing (tree.list store.scriptsDirectory)) :
    cleanup.reportListed store listing tree = cleanup.report store tree := by
  unfold reportListed report run
  rw [targetsListed_eq cleanup store same]
  split <;> rfl

def scriptNames (cleanup : Cleanup) (store : Store) (tree : FileTree) : List String :=
  if cleanup.failed then
    match tree.list store.scriptsDirectory with
    | .ok listed => cleanup.staleNames listed
    | .error _ => []
  else []

theorem targets_eq (cleanup : Cleanup) (store : Store) (tree : FileTree) :
    ∃ obstacles : List CleanupOutcome,
      cleanup.targets store tree = (obstacles, store.chainsDirectory / cleanup.documentName ::
        (cleanup.scriptNames store tree).map (store.scriptsDirectory / ·)) ∧
      obstacles.filterMap CleanupOutcome.removed? = [] ∧
      obstacles.filterMap CleanupOutcome.error? = cleanup.listingErrors store tree := by
  unfold targets scriptNames listingErrors
  by_cases failed : cleanup.failed = true
  · simp only [if_pos failed]
    cases tree.list store.scriptsDirectory with
    | ok listed => exact ⟨[], rfl, rfl, rfl⟩
    | error e =>
      cases e with
      | notFound => exact ⟨[], rfl, rfl, rfl⟩
      | _ => exact ⟨[.unlisted _ _], rfl, rfl, rfl⟩
  · simp only [if_neg failed]
    exact ⟨[], rfl, rfl, rfl⟩

/-- There are scripts to remove only if the chain failed and the scripts directory is there. -/
theorem scriptNames_cases (cleanup : Cleanup) (store : Store) (tree : FileTree) :
    (cleanup.failed = true ∧ ∃ dir, tree.locate store.scriptsDirectory = .ok dir ∧
      tree.node? dir = some .directory ∧
      cleanup.scriptNames store tree = cleanup.staleNames (tree.names dir)) ∨
    (cleanup.scriptNames store tree = [] ∧ ∀ name, ¬ cleanup.Stale store tree name) := by
  unfold scriptNames
  by_cases failed : cleanup.failed = true
  · rw [if_pos failed]
    cases listed : tree.list store.scriptsDirectory with
    | ok names =>
      obtain ⟨dir, located, directory, rfl⟩ := FileTree.list_eq_ok.mp listed
      exact .inl ⟨failed, dir, located, directory, rfl⟩
    | error e =>
      refine .inr ⟨rfl, fun name stale => ?_⟩
      obtain ⟨dir, located, directory, -⟩ := stale.entry
      rw [FileTree.list_eq_ok.mpr ⟨dir, located, directory, rfl⟩] at listed
      cases listed
  · rw [if_neg failed]
    exact .inr ⟨rfl, fun name stale => failed stale.failed⟩

theorem mem_scriptNames {cleanup : Cleanup} {store : Store} {tree : FileTree} {name : String} :
    name ∈ cleanup.scriptNames store tree ↔ cleanup.Stale store tree name := by
  rcases cleanup.scriptNames_cases store tree with ⟨failed, dir, located, directory, eq⟩ | ⟨eq, no⟩
  · rw [eq, mem_staleNames, FileTree.mem_names, isStale_iff]
    constructor
    · rintro ⟨there, later⟩
      exact ⟨failed, ⟨dir, located, directory, there⟩, later⟩
    · rintro ⟨-, ⟨dir', located', -, there⟩, later⟩
      obtain rfl := Except.ok.inj (located.symm.trans located')
      exact ⟨there, later⟩
  · rw [eq]
    exact ⟨fun mem => absurd mem List.not_mem_nil, fun stale => absurd stale (no name)⟩

theorem scriptNames_sorted (cleanup : Cleanup) (store : Store) (tree : FileTree) :
    (cleanup.scriptNames store tree).Pairwise fun a b =>
      FileName.Before (FileName.ofString a) (FileName.ofString b) := by
  rcases cleanup.scriptNames_cases store tree with ⟨-, dir, -, -, eq⟩ | ⟨eq, -⟩
  · rw [eq]
    exact staleNames_sorted (tree.names_sorted dir)
  · rw [eq]
    exact .nil

theorem plainName_documentName {cleanup : Cleanup} (no_slash : '/' ∉ cleanup.machine.toList) :
    PlainName cleanup.documentName := Chunk.plainName_fileNameOf _ _ no_slash

theorem Stale.plainName {cleanup : Cleanup} {store : Store} {tree : FileTree} {name : String}
    (stale : cleanup.Stale store tree name) (no_slash : '/' ∉ cleanup.machine.toList) :
    PlainName name := by
  obtain ⟨number, read, -⟩ := stale.later
  exact ScriptFile.plainName_of_chunk? no_slash read

/-- The paths that a cleanup tries to remove. -/
def paths (cleanup : Cleanup) (store : Store) (tree : FileTree) : List FilePath :=
  store.chainsDirectory / cleanup.documentName ::
    (cleanup.scriptNames store tree).map (store.scriptsDirectory / ·)

theorem undisturbed_paths (cleanup : Cleanup) (store : Store) (tree : FileTree)
    (no_slash : '/' ∉ cleanup.machine.toList) : Undisturbed tree (cleanup.paths store tree) := by
  unfold paths
  rcases cleanup.scriptNames_cases store tree with ⟨-, dir, located, directory, eq⟩ | ⟨eq, -⟩
  · have at_dir : tree.DirectoryAt (store.chainsDirectory / scriptsFolder) dir :=
      ⟨FileTree.walk_of_locate_join Store.plain_scriptsFolder located, directory⟩
    have plain : ∀ name ∈ cleanup.scriptNames store tree, PlainName name := fun name mem =>
      (mem_scriptNames.mp mem).plainName no_slash
    have nodup : (cleanup.scriptNames store tree).Nodup := by
      rw [eq]
      exact staleNames_nodup (tree.names_sorted dir)
    exact undisturbed_below (plainName_documentName no_slash) Store.plain_scriptsFolder at_dir plain nodup
  · rw [eq]
    exact ⟨fun _ mem => absurd mem List.not_mem_nil, trivial⟩

/-- The device is in reach of no cleanup, for it stands in neither of the directories. -/
theorem paths_miss_device (cleanup : Cleanup) (store : Store) (tree : FileTree)
    (no_slash : '/' ∉ cleanup.machine.toList) :
    ∀ path ∈ cleanup.paths store tree, tree.locate path ≠ .ok deviceLocation := by
  intro path mem located
  rcases List.mem_cons.mp mem with rfl | mem
  · obtain ⟨base, -, here⟩ := Store.exists_of_locate_chains (plainName_documentName no_slash) located
    exact Store.append_ne_deviceLocation (Store.chains_mem_folders base) _ here.symm
  · obtain ⟨name, listed, rfl⟩ := List.mem_map.mp mem
    have plain := (mem_scriptNames.mp listed).plainName no_slash
    obtain ⟨base, -, here⟩ := Store.exists_of_locate_scripts plain located
    exact Store.append_ne_deviceLocation (Store.scripts_mem_folders base) _ here.symm

/-- The result of a cleanup with these targets: the files among them are gone and reported in order,
and every other target that something stands in the way of is reported with the reason. -/
structure Removes (cleanup : Cleanup) (store : Store) (tree : FileTree) (targets : List FilePath)
    (result : FileTree × CleanupReport) : Prop where
  removed : result.2.removed = targets.filter tree.isFile
  errors : result.2.errors =
    cleanup.listingErrors store tree ++ targets.filterMap tree.removalError?
  without : tree.Without result.1 result.2.removed

/-- A machine without a separator is let in, and the targets are removed. -/
theorem report_of_targets {cleanup : Cleanup} {store : Store} {tree : FileTree}
    (plain : ¬ HoldsSeparator cleanup.machine.toList)
    {obstacles : List CleanupOutcome} {paths : List FilePath}
    (targets : cleanup.targets store tree = (obstacles, paths)) :
    cleanup.report store tree = ((removeAll paths tree).1, .of (obstacles ++ (removeAll paths tree).2)) := by
  have allowed : isFileName cleanup.documentName = true :=
    (Chunk.isFileName_fileNameOf_iff _ _ _).mpr plain
  simp [report, run, allowed, targets]

theorem removes_paths {cleanup : Cleanup} {store : Store} {tree : FileTree}
    (plain : ¬ HoldsSeparator cleanup.machine.toList) :
    cleanup.Removes store tree (cleanup.paths store tree) (cleanup.report store tree) := by
  have no_slash := (not_or.mp plain).1
  have undisturbed := cleanup.undisturbed_paths store tree no_slash
  have no_device := cleanup.paths_miss_device store tree no_slash
  obtain ⟨obstacles, targets, none_removed, listing⟩ := cleanup.targets_eq store tree
  change _ = (obstacles, cleanup.paths store tree) at targets
  have result := report_of_targets plain targets
  generalize cleanup.paths store tree = paths at undisturbed no_device result ⊢
  have removed : (cleanup.report store tree).2.removed = paths.filter tree.isFile := by
    rw [result, ← removed_removeAll undisturbed no_device]
    change (obstacles ++ _).filterMap _ = _
    rw [List.filterMap_append, none_removed, List.nil_append]
  refine ⟨removed, ?_, ?_⟩
  · rw [result, ← errors_removeAll undisturbed, ← listing]
    exact List.filterMap_append
  · rw [removed, result]
    exact without_removeAll undisturbed no_device

/-- A cleanup removes the document and the stale scripts, whatever else is in the tree, and reports what
it did. -/
theorem report_removes_targets (cleanup : Cleanup) (store : Store) (tree : FileTree)
    (no_slash : '/' ∉ cleanup.machine.toList) (no_backslash : '\\' ∉ cleanup.machine.toList) :
    ∃ scripts : List String,
      (scripts.Pairwise fun a b => FileName.Before (FileName.ofString a) (FileName.ofString b)) ∧
      (∀ name, name ∈ scripts ↔ cleanup.Stale store tree name) ∧
      cleanup.Removes store tree
        (store.chainsDirectory / cleanup.documentName :: scripts.map (store.scriptsDirectory / ·))
        (cleanup.report store tree) ∧
      ∀ listing, Reordered listing (tree.list store.scriptsDirectory) →
        cleanup.reportListed store listing tree = cleanup.report store tree :=
  ⟨cleanup.scriptNames store tree, cleanup.scriptNames_sorted store tree, fun _ => mem_scriptNames,
    removes_paths (not_or.mpr ⟨no_slash, no_backslash⟩), fun _ => cleanup.reportListed_eq store⟩

/-- A cleanup after a failure in the second chunk. -/
def failedSecond : Cleanup where
  chain := 7
  machine := "m1"
  chunk := 2
  failed := true

/-- A tree with a document and scripts of the first two chunks, and a foreign file. -/
def leftovers : FileTree :=
  let chains := [FileName.ofString "salt", FileName.ofString "actionchains"]
  let scripts := chains ++ [FileName.ofString "scripts"]
  let file := Node.file "x".toUTF8
  (((((((FileTree.empty.putAt (chains.take 1) .directory).putAt chains .directory).putAt scripts
    .directory).putAt (chains ++ [FileName.ofString "actionchain_7_m1_2.sls"]) file).putAt
    (scripts ++ [FileName.ofString "script_suma_actionchain_7_m1_chunk_1_action_4.sh"]) file).putAt
    (scripts ++ [FileName.ofString "script_suma_actionchain_7_m1_chunk_2_action_5.sh"]) file).putAt
    (scripts ++ [FileName.ofString "notes"]) file)

theorem report_removes_leftovers :
    '/' ∉ failedSecond.machine.toList ∧ '\\' ∉ failedSecond.machine.toList ∧
      (failedSecond.report ⟨⟨"salt"⟩⟩ leftovers).2.removed =
        [⟨"salt/actionchains/actionchain_7_m1_2.sls"⟩,
          ⟨"salt/actionchains/scripts/script_suma_actionchain_7_m1_chunk_2_action_5.sh"⟩] ∧
      ∃ scripts : List String,
        (scripts.Pairwise fun a b => FileName.Before (FileName.ofString a) (FileName.ofString b)) ∧
        (∀ name, name ∈ scripts ↔ failedSecond.Stale ⟨⟨"salt"⟩⟩ leftovers name) ∧
        failedSecond.Removes ⟨⟨"salt"⟩⟩ leftovers
          (Store.chainsDirectory ⟨⟨"salt"⟩⟩ / failedSecond.documentName ::
            scripts.map (Store.scriptsDirectory ⟨⟨"salt"⟩⟩ / ·))
          (failedSecond.report ⟨⟨"salt"⟩⟩ leftovers) ∧
        ∀ listing, Reordered listing (leftovers.list (Store.scriptsDirectory ⟨⟨"salt"⟩⟩)) →
          failedSecond.reportListed ⟨⟨"salt"⟩⟩ listing leftovers =
            failedSecond.report ⟨⟨"salt"⟩⟩ leftovers := by
  have no_slash : '/' ∉ failedSecond.machine.toList := by decide
  have no_backslash : '\\' ∉ failedSecond.machine.toList := by decide
  exact ⟨no_slash, no_backslash, by decide +kernel,
    report_removes_targets failedSecond ⟨⟨"salt"⟩⟩ leftovers no_slash no_backslash⟩

end Cleanup

end ChunkedChain
