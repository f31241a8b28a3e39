import ChunkedChain.Proofs.Clearing
import ChunkedChain.Proofs.Lockstep

/-!
# Cleaning up again

A cleanup leaves the directories of the store as they are, and of its paths it leaves those that it could
not remove. So when it is run again it comes to the same places: it finds no file there, and whatever stood
in its way the first time still does. A cleanup of a later chunk tries no other scripts than the first one
did, so only its document can be left for it.
-/

namespace ChunkedChain

namespace FileTree

/-- A path that leads to a name in a directory goes through that directory. -/
theorem exists_directoryAt_of_walk_join {tree : FileTree} {dir : FilePath} {name : String}
    (plain : PlainName name) {place : Location}
    (h : tree.walk (tree.start (dir / name)) (dir / name).components = .ok place) :
    ∃ location, tree.DirectoryAt dir location := by
  rw [tree.walk_join plain] at h
  cases walked : tree.walk (tree.start dir) dir.components with
  | error e =>
    rw [walked] at h
    cases h
  | ok location =>
    rw [walked] at h
    have stepped : tree.step location (.name (FileName.ofString name)) = .ok place := h
    exact ⟨location, walked, directory_of_step stepped⟩

theorem exists_file_of_isFile {tree : FileTree} {path : FilePath} (file : tree.isFile path = true) :
    ∃ location content, tree.locate path = .ok location ∧ tree.node? location = some (.file content) := by
  cases located : tree.locate path with
  | error e =>
    rw [isFile, find_of_error located] at file
    cases file
  | ok location =>
    obtain ⟨content, there⟩ := exists_content_of_isFile located file
    exact ⟨location, content, rfl, there⟩

theorem removalError?_of_isFile {tree : FileTree} {path : FilePath} (file : tree.isFile path = true) :
    tree.removalError? path = none := by
  rcases tree.remove_cases path with ⟨_, -, -, -, removed⟩ | ⟨no_file, -⟩
  · rw [removalError?, removed]
  · rw [file] at no_file
    cases no_file

end FileTree

namespace Cleanup

open Store

variable {cleanup : Cleanup} {store : Store} {tree : FileTree} {base : Location}

/-- A path in the directory of documents leads somewhere only if the states root is a directory. -/
theorem exists_root_of_locate {name : String} (plain : PlainName name) {place : Location}
    (located : tree.locate (store.chainsDirectory / name) = .ok place) :
    ∃ base, tree.DirectoryAt store.root base := by
  obtain ⟨chains, at_chains⟩ :=
    FileTree.exists_directoryAt_of_walk_join plain (FileTree.walk_of_locate_join plain located)
  exact FileTree.exists_directoryAt_of_walk_join plain_chainsFolder at_chains.walk_eq

theorem scriptNames_nodup (cleanup : Cleanup) (store : Store) (tree : FileTree) :
    (cleanup.scriptNames store tree).Nodup := by
  refine (cleanup.scriptNames_sorted store tree).imp ?_
  rintro a b before rfl
  exact before.ne rfl

section Plain

variable (plain : ¬ HoldsSeparator cleanup.machine.toList)

include plain

theorem report_of_no_file (none_file : ∀ path ∈ cleanup.paths store tree, tree.isFile path = false) :
    cleanup.report store tree = (tree, ⟨[], (cleanup.report store tree).2.errors⟩) := by
  have removes : cleanup.Removes store tree _ _ := removes_paths plain
  have removed : (cleanup.report store tree).2.removed = [] := by
    rw [removes.removed, List.filter_eq_nil_iff]
    intro path mem
    simp [none_file path mem]
  have without := removes.without
  rw [removed] at without
  have same : (cleanup.report store tree).1 = tree :=
    FileTree.ext_node? (fun location => without.kept location fun _ mem => absurd mem List.not_mem_nil)
      without.workingDirectory
  generalize cleanup.report store tree = result at removed same ⊢
  obtain ⟨after, removed_paths, errors⟩ := result
  obtain rfl : after = tree := same
  obtain rfl : removed_paths = [] := removed
  rfl

/-- Without a states root there is nothing to remove. -/
theorem no_file_of_no_root (no_root : ¬ ∃ base, tree.DirectoryAt store.root base) :
    ∀ path ∈ cleanup.paths store tree, tree.isFile path = false := by
  have lost {name : String} (plain_name : PlainName name) {place : Location} :
      tree.locate (store.chainsDirectory / name) ≠ .ok place :=
    fun located => no_root (exists_root_of_locate plain_name located)
  intro path mem
  rcases List.mem_cons.mp mem with rfl | mem
  · cases located : tree.locate (store.chainsDirectory / cleanup.documentName) with
    | error e => rw [FileTree.isFile, FileTree.find_of_error located]
    | ok place => exact absurd located (lost (plainName_documentName (not_or.mp plain).1))
  · obtain ⟨name, listed, rfl⟩ := List.mem_map.mp mem
    obtain ⟨dir, located, -⟩ := (mem_scriptNames.mp listed).entry
    exact absurd located (lost plain_scriptsFolder)

/-- What is no file stays. -/
theorem node?_report_of_no_file {location : Location}
    (no_file : ∀ content, tree.node? location ≠ some (.file content)) :
    (cleanup.report store tree).1.node? location = tree.node? location := by
  have removes : cleanup.Removes store tree _ _ := removes_paths plain
  refine removes.without.kept location fun path removed located => ?_
  rw [removes.removed] at removed
  obtain ⟨content, there⟩ := FileTree.exists_content_of_isFile located (List.mem_filter.mp removed).2
  exact no_file content there

section Root

variable (at_root : tree.DirectoryAt store.root base)

include at_root

/-- The directories of the store are as they were, or whatever is in their place. -/
theorem node?_report_of_mem_folders {location : Location} (mem : location ∈ folders base) :
    (cleanup.report store tree).1.node? location = tree.node? location := by
  rcases (changesOnly_report at_root cleanup).folders location mem with same | ⟨missing, made⟩
  · exact same
  · rw [node?_of_report plain made] at missing
    cases missing

theorem locate_chains_report {name : String} (plain_name : PlainName name) :
    (cleanup.report store tree).1.locate (store.chainsDirectory / name) =
      tree.locate (store.chainsDirectory / name) := by
  have at_root' := (changesOnly_report at_root cleanup).keepsDirectories.directoryAt at_root
  rw [locate_chains_join at_root plain_name, locate_chains_join at_root' plain_name,
    FileTree.step_congr (node?_report_of_mem_folders plain at_root (chains_mem_folders base))]

theorem locate_scriptsDirectory_report :
    (cleanup.report store tree).1.locate store.scriptsDirectory = tree.locate store.scriptsDirectory :=
  locate_chains_report plain at_root plain_scriptsFolder

/-- A path of the cleanup leads where it led before. -/
theorem locate_report {path : FilePath} (mem : path ∈ cleanup.paths store tree) :
    (cleanup.report store tree).1.locate path = tree.locate path := by
  have no_slash := (not_or.mp plain).1
  rcases List.mem_cons.mp mem with rfl | mem
  · exact locate_chains_report plain at_root (plainName_documentName no_slash)
  · obtain ⟨name, listed, rfl⟩ := List.mem_map.mp mem
    have stale := mem_scriptNames.mp listed
    obtain ⟨dir, located, directory, -⟩ := stale.entry
    have at_scripts := FileTree.directoryAt_of_locate located directory
    have at_scripts' := (changesOnly_report at_root cleanup).keepsDirectories.directoryAt at_scripts
    rw [at_scripts.locate_join (stale.plainName no_slash), at_scripts'.locate_join (stale.plainName no_slash)]

/-- After a cleanup, none of its paths is that of a file. -/
theorem isFile_report {path : FilePath} (mem : path ∈ cleanup.paths store tree) :
    (cleanup.report store tree).1.isFile path = false := by
  by_contra file
  rw [Bool.not_eq_false] at file
  obtain ⟨location, content, located, left⟩ := FileTree.exists_file_of_isFile file
  rw [locate_report plain at_root mem] at located
  have there := node?_of_report plain left
  rw [(gone_of_mem_paths plain mem located there).2] at left
  cases left

/-- What stood in the way of a removal still does, and there is nothing in the way where a file was. -/
theorem removalError?_report {path : FilePath} (mem : path ∈ cleanup.paths store tree) :
    (cleanup.report store tree).1.removalError? path = tree.removalError? path := by
  have locate_eq := locate_report plain at_root mem
  unfold FileTree.removalError?
  cases located : tree.locate path with
  | error e =>
    rw [FileTree.remove_of_error located, FileTree.remove_of_error (locate_eq.trans located)]
  | ok location =>
    rw [FileTree.remove_of_locate located, FileTree.remove_of_locate (locate_eq.trans located)]
    by_cases file : ∃ content, tree.node? location = some (.file content)
    · obtain ⟨content, there⟩ := file
      rw [(gone_of_mem_paths plain mem located there).2, there]
    · rw [node?_report_of_no_file plain (not_exists.mp file)]
      rcases there : tree.node? location with _ | _ | content | _
      · rfl
      · rfl
      · exact absurd ⟨content, there⟩ file
      · rfl

/-- A cleanup of the same chunk or a later one can only try scripts that the first one tried. -/
theorem stale_of_report {later : Cleanup} (chain_eq : later.chain = cleanup.chain)
    (machine_eq : later.machine = cleanup.machine) (chunk_le : cleanup.chunk ≤ later.chunk)
    (failed : cleanup.failed = true) {name : String}
    (stale : later.Stale store (cleanup.report store tree).1 name) : cleanup.Stale store tree name := by
  obtain ⟨-, ⟨dir, located, directory, there⟩, number, read, from_later⟩ := stale
  have located' : tree.locate store.scriptsDirectory = .ok dir :=
    (locate_scriptsDirectory_report plain at_root).symm.trans located
  obtain ⟨node, at_name⟩ := Option.isSome_iff_exists.mp there
  rw [chain_eq, machine_eq] at read
  refine ⟨failed, ⟨dir, located', node?_of_report plain directory, ?_⟩, number, read,
    UInt32.le_trans chunk_le from_later⟩
  exact Option.isSome_iff_exists.mpr ⟨node, node?_of_report plain at_name⟩

/-- The scripts that a second cleanup tries are those that the first one could not remove. -/
theorem stale_report_iff {name : String} :
    cleanup.Stale store (cleanup.report store tree).1 name ↔
      cleanup.Stale store tree name ∧ tree.isFile (store.scriptsDirectory / name) = false := by
  have no_slash := (not_or.mp plain).1
  constructor
  · intro stale
    have stale' := stale_of_report plain at_root rfl rfl (UInt32.le_refl _) stale.failed stale
    refine ⟨stale', ?_⟩
    by_contra file
    rw [Bool.not_eq_false] at file
    obtain ⟨location, content, leads, there⟩ := FileTree.exists_file_of_isFile file
    have gone := (gone_of_mem_paths plain (mem_paths_of_stale stale') leads there).2
    obtain ⟨dir, located, -, left⟩ := stale.entry
    rw [locate_scriptsDirectory_report plain at_root] at located
    obtain rfl : dir = scriptsLocation base := eq_of_locate_chains at_root plain_scriptsFolder located
    rw [eq_of_locate_scripts at_root (stale'.plainName no_slash) leads, scriptLocation] at gone
    rw [gone] at left
    cases left
  · rintro ⟨stale, no_file⟩
    obtain ⟨dir, located, directory, there⟩ := stale.entry
    obtain rfl : dir = scriptsLocation base := eq_of_locate_chains at_root plain_scriptsFolder located
    have removes : cleanup.Removes store tree _ _ := removes_paths plain
    have left : (cleanup.report store tree).1.node? (scriptLocation base name) =
        tree.node? (scriptLocation base name) := by
      refine removes.without.kept _ fun path removed leads => ?_
      rw [removes.removed] at removed
      obtain ⟨mem, file⟩ := List.mem_filter.mp removed
      rcases List.mem_cons.mp mem with rfl | mem
      · exact documentLocation_ne_scriptLocation _ _ _ _ _
          (eq_of_locate_chains at_root (plainName_documentName no_slash) leads).symm
      · obtain ⟨other, listed, rfl⟩ := List.mem_map.mp mem
        have same := eq_of_locate_scripts at_root ((mem_scriptNames.mp listed).plainName no_slash) leads
        rw [scriptLocation_inj same, file] at no_file
        cases no_file
    refine ⟨stale.failed, ⟨scriptsLocation base, ?_, ?_, ?_⟩, stale.later⟩
    · exact (locate_scriptsDirectory_report plain at_root).trans located
    · exact (changesOnly_report at_root cleanup).keepsDirectories.directory _ directory
    · rw [scriptLocation] at left
      rw [left]
      exact there

theorem scriptNames_report :
    cleanup.scriptNames store (cleanup.report store tree).1 =
      (cleanup.scriptNames store tree).filter fun name => !tree.isFile (store.scriptsDirectory / name) := by
  refine List.Perm.eq_of_pairwise (fun a b _ _ first second => ?_) (cleanup.scriptNames_sorted store _)
    ((cleanup.scriptNames_sorted store tree).filter _) ?_
  · exact absurd second first.not_before
  · refine (List.perm_ext_iff_of_nodup (scriptNames_nodup _ store _)
      ((scriptNames_nodup _ store tree).filter _)).mpr fun name => ?_
    rw [List.mem_filter, mem_scriptNames, mem_scriptNames, Bool.not_eq_true']
    exact stale_report_iff plain at_root

/-- The directory of scripts is listed again, or cannot be for the same reason. -/
theorem listingErrors_report :
    cleanup.listingErrors store (cleanup.report store tree).1 = cleanup.listingErrors store tree := by
  have at_root' := (changesOnly_report at_root cleanup).keepsDirectories.directoryAt at_root
  have chains : (cleanup.report store tree).1.node? (chainsLocation base) =
      tree.node? (chainsLocation base) := node?_report_of_mem_folders plain at_root (chains_mem_folders base)
  have scripts : (cleanup.report store tree).1.node? (scriptsLocation base) =
      tree.node? (scriptsLocation base) :=
    node?_report_of_mem_folders plain at_root (scripts_mem_folders base)
  unfold listingErrors
  rw [list_scripts at_root', list_scripts at_root, FileTree.isBlocked, FileTree.isBlocked,
    FileTree.isBlocked, FileTree.isBlocked, chains, scripts]
  -- Only the names in the directory may differ now, and they are of no account.
  generalize FileTree.names _ (scriptsLocation base) = names
  generalize FileTree.names _ (scriptsLocation base) = names'
  generalize store.scriptsDirectory = dir
  cases dir.refusal? with
  | some e => rfl
  | none =>
    dsimp only [Option.elim_none]
    split_ifs <;> rfl

theorem removalErrors_report :
    (cleanup.paths store (cleanup.report store tree).1).filterMap
        (cleanup.report store tree).1.removalError? =
      (cleanup.paths store tree).filterMap tree.removalError? := by
  have same : ∀ path ∈ cleanup.paths store tree,
      (cleanup.report store tree).1.removalError? path = tree.removalError? path :=
    fun path mem => removalError?_report plain at_root mem
  have scripts : ((cleanup.scriptNames store (cleanup.report store tree).1).map
        (store.scriptsDirectory / ·)).filterMap (cleanup.report store tree).1.removalError? =
      ((cleanup.scriptNames store tree).map (store.scriptsDirectory / ·)).filterMap tree.removalError? := by
    rw [scriptNames_report plain at_root, List.filterMap_map, List.filterMap_map, List.filterMap_filter]
    refine List.filterMap_congr fun name listed => ?_
    have same_name := same _ (List.mem_cons_of_mem _ (List.mem_map_of_mem listed))
    cases file : tree.isFile (store.scriptsDirectory / name) with
    | false => exact same_name
    | true => exact (FileTree.removalError?_of_isFile file).symm
  rw [paths, paths, List.filterMap_cons, List.filterMap_cons, same _ List.mem_cons_self, scripts]

/-- A second cleanup finds nothing to remove, and meets the obstacles that the first one met. -/
theorem report_twice_of_root :
    cleanup.report store (cleanup.report store tree).1 =
      ((cleanup.report store tree).1, ⟨[], (cleanup.report store tree).2.errors⟩) := by
  have tried : ∀ path ∈ cleanup.paths store (cleanup.report store tree).1,
      path ∈ cleanup.paths store tree := by
    intro path mem
    rcases List.mem_cons.mp mem with rfl | mem
    · exact List.mem_cons_self
    · obtain ⟨name, listed, rfl⟩ := List.mem_map.mp mem
      exact mem_paths_of_stale ((stale_report_iff plain at_root).mp (mem_scriptNames.mp listed)).1
  have removes : cleanup.Removes store tree _ _ := removes_paths plain
  have removes' : cleanup.Removes store (cleanup.report store tree).1 _ _ := removes_paths plain
  rw [report_of_no_file plain fun path mem => isFile_report plain at_root (tried path mem),
    removes'.errors, removes.errors, listingErrors_report plain at_root, removalErrors_report plain at_root]

end Root

/-- Without a states root, a cleanup changes nothing. -/
theorem report_of_no_root (no_root : ¬ ∃ base, tree.DirectoryAt store.root base) :
    (cleanup.report store tree).1 = tree :=
  congrArg Prod.fst (report_of_no_file plain (no_file_of_no_root plain no_root))

/-- A second cleanup with the same arguments leaves the tree as it is and reports the same errors. -/
theorem report_twice_of_plain :
    cleanup.report store (cleanup.report store tree).1 =
      ((cleanup.report store tree).1, ⟨[], (cleanup.report store tree).2.errors⟩) := by
  by_cases root : ∃ base, tree.DirectoryAt store.root base
  · obtain ⟨base, at_root⟩ := root
    exact report_twice_of_root plain at_root
  · rw [report_of_no_root plain root]
    exact report_of_no_file plain (no_file_of_no_root plain root)

variable {later : Cleanup} (chain_eq : later.chain = cleanup.chain)
  (machine_eq : later.machine = cleanup.machine) (chunk_le : cleanup.chunk ≤ later.chunk)
  (failed : cleanup.failed = true)

include chain_eq machine_eq chunk_le failed

/-- After a failure, a cleanup of a later chunk finds no file among its scripts. -/
theorem isFile_of_later_stale {name : String}
    (stale : later.Stale store (cleanup.report store tree).1 name) :
    (cleanup.report store tree).1.isFile (store.scriptsDirectory / name) = false := by
  by_cases root : ∃ base, tree.DirectoryAt store.root base
  · obtain ⟨base, at_root⟩ := root
    have tried := stale_of_report plain at_root chain_eq machine_eq chunk_le failed stale
    exact isFile_report plain at_root (mem_paths_of_stale tried)
  · rw [report_of_no_root plain root] at stale ⊢
    exact no_file_of_no_root (machine_eq ▸ plain) root _ (mem_paths_of_stale stale)

/-- After a failure, a cleanup of a later chunk removes its document at most. -/
theorem removed_of_later :
    ((later.report store (cleanup.report store tree).1).2.removed = [] ∨
      (later.report store (cleanup.report store tree).1).2.removed =
        [store.chainsDirectory / later.documentName]) ∧
    (cleanup.report store tree).1.Without (later.report store (cleanup.report store tree).1).1
      (later.report store (cleanup.report store tree).1).2.removed := by
  have plain_later : ¬ HoldsSeparator later.machine.toList := machine_eq ▸ plain
  have removes : later.Removes store (cleanup.report store tree).1 _ _ := removes_paths plain_later
  have no_script : ((later.scriptNames store (cleanup.report store tree).1).map
      (store.scriptsDirectory / ·)).filter (cleanup.report store tree).1.isFile = [] := by
    refine List.filter_eq_nil_iff.mpr fun path mem => ?_
    obtain ⟨name, listed, rfl⟩ := List.mem_map.mp mem
    rw [isFile_of_later_stale plain chain_eq machine_eq chunk_le failed (mem_scriptNames.mp listed)]
    exact Bool.false_ne_true
  refine ⟨?_, removes.without⟩
  rw [removes.removed, paths, List.filter_cons, no_script]
  split
  · exact .inr rfl
  · exact .inl rfl

end Plain

/-- What a cleanup leaves is left by the same cleanup again, with the same complaints. -/
theorem report_twice (cleanup : Cleanup) (store : Store) (tree : FileTree) :
    cleanup.report store (cleanup.report store tree).1 =
      ((cleanup.report store tree).1, ⟨[], (cleanup.report store tree).2.errors⟩) := by
  by_cases separator : HoldsSeparator cleanup.machine.toList
  · rw [cleanup.report_of_separator store tree separator]
    exact cleanup.report_of_separator store tree separator
  · exact report_twice_of_plain separator

/-- After a failure, a cleanup of a later chunk removes its document at most, and nothing else changes. -/
theorem without_of_later {cleanup later : Cleanup} (store : Store) (tree : FileTree)
    (chain_eq : later.chain = cleanup.chain) (machine_eq : later.machine = cleanup.machine)
    (chunk_le : cleanup.chunk ≤ later.chunk) (failed : cleanup.failed = true) :
    ((later.report store (cleanup.report store tree).1).2.removed = [] ∨
      (later.report store (cleanup.report store tree).1).2.removed =
        [store.chainsDirectory / later.documentName]) ∧
    (cleanup.report store tree).1.Without (later.report store (cleanup.report store tree).1).1
      (later.report store (cleanup.report store tree).1).2.removed := by
  by_cases separator : HoldsSeparator later.machine.toList
  · generalize (cleanup.report store tree).1 = after
    rw [later.report_of_separator store after separator]
    exact ⟨.inl rfl, .refl after⟩
  · exact removed_of_later (machine_eq ▸ separator) chain_eq machine_eq chunk_le failed

/-- Cleaning up again is harmless. The same cleanup leaves the tree as it is, removes nothing and reports the
same errors in the same order. After a failure, a cleanup of a later chunk removes nothing but the document
of that chunk, if it is there. All this holds in whatever order the directory of scripts is listed. -/
theorem report_again (store : Store) (tree : FileTree) :
    (∀ cleanup : Cleanup,
      cleanup.report store (cleanup.report store tree).1 =
        ((cleanup.report store tree).1, ⟨[], (cleanup.report store tree).2.errors⟩)) ∧
    (∀ (chain : UInt64) (machine : String) (k k' : UInt32), k ≤ k' →
      let after := (report ⟨chain, machine, k, true⟩ store tree).1
      let second := report ⟨chain, machine, k', true⟩ store after
      (second.2.removed = [] ∨ second.2.removed = [store.documentPath chain machine k']) ∧
        after.Without second.1 second.2.removed) ∧
    ∀ (cleanup : Cleanup) (other : FileTree) (listing : Except FileError (List FileName)),
      Reordered listing (other.list store.scriptsDirectory) →
        cleanup.reportListed store listing other = cleanup.report store other := by
  refine ⟨fun cleanup => cleanup.report_twice store tree, fun chain machine k k' chunk_le => ?_,
    fun cleanup _ _ same => cleanup.reportListed_eq store same⟩
  exact without_of_later store tree rfl rfl chunk_le rfl

theorem report_again_leftovers :
    failedSecond.report ⟨⟨"salt"⟩⟩ (failedSecond.report ⟨⟨"salt"⟩⟩ leftovers).1 =
      ((failedSecond.report ⟨⟨"salt"⟩⟩ leftovers).1,
        ⟨[], (failedSecond.report ⟨⟨"salt"⟩⟩ leftovers).2.errors⟩) ∧
    (2 : UInt32) ≤ 3 ∧
    (let after := (report ⟨7, "m1", 2, true⟩ ⟨⟨"salt"⟩⟩ leftovers).1
      let second := report ⟨7, "m1", 3, true⟩ ⟨⟨"salt"⟩⟩ after
      (second.2.removed = [] ∨ second.2.removed = [documentPath ⟨⟨"salt"⟩⟩ 7 "m1" 3]) ∧
        after.Without second.1 second.2.removed) ∧
    let backwards := (leftovers.list (scriptsDirectory ⟨⟨"salt"⟩⟩)).map List.reverse
    Reordered backwards (leftovers.list (scriptsDirectory ⟨⟨"salt"⟩⟩)) ∧
      failedSecond.reportListed ⟨⟨"salt"⟩⟩ backwards leftovers =
        failedSecond.report ⟨⟨"salt"⟩⟩ leftovers := by
  have later : (2 : UInt32) ≤ 3 := by decide
  obtain ⟨twice, removed, listed⟩ := report_again ⟨⟨"salt"⟩⟩ leftovers
  have backwards : Reordered ((leftovers.list (scriptsDirectory ⟨⟨"salt"⟩⟩)).map List.reverse)
      (leftovers.list (scriptsDirectory ⟨⟨"salt"⟩⟩)) := by
    cases leftovers.list (scriptsDirectory ⟨⟨"salt"⟩⟩) with
    | error e => exact .error e
    | ok names => exact .ok (List.reverse_perm names)
  exact ⟨twice failedSecond, later, removed 7 "m1" 2 3 later, backwards,
    listed failedSecond leftovers _ backwards⟩

end Cleanup

end ChunkedChain
