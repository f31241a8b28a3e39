import ChunkedChain.Proofs.OwnFiles

/-!
# Two runs in lockstep

Take two trees that differ in files that an operation never gets to, and in directories of the store that
only the second one has. The operation cannot tell them apart: a directory that it finds missing holds none
of its files either. So it gives the same answer on both, and changes the same in both.
-/

namespace ChunkedChain

/-- Where nothing is, there are no names. -/
theorem FileTree.names_of_missing (tree : FileTree) {dir : Location} (missing : tree.node? dir = none) :
    tree.names dir = [] := by
  refine List.eq_nil_iff_forall_not_mem.mpr fun name mem => ?_
  have above := directory_of_isSome (mem_names.mp mem)
  rw [missing] at above
  cases above

namespace Store

/-- The trees `tree` and `twin` have become `next` and `after`, which still differ in foreign files at most,
and of the directories of the store the same have been made in both. -/
structure Lockstep (base : Location) (foreign : Location → Prop) (tree twin next after : FileTree) :
    Prop where
  changes : ChangesOnly base foreign next after
  folders : ∀ location ∈ folders base,
    (next.node? location = tree.node? location ∧ after.node? location = twin.node? location) ∨
      (next.node? location = some .directory ∧ after.node? location = some .directory)

namespace Lockstep

variable {base : Location} {foreign : Location → Prop} {tree twin next after last final : FileTree}

theorem refl (changes : ChangesOnly base foreign tree twin) :
    Lockstep base foreign tree twin tree twin :=
  ⟨changes, fun _ _ => .inl ⟨rfl, rfl⟩⟩

theorem trans (first : Lockstep base foreign tree twin next after)
    (second : Lockstep base foreign next after last final) :
    Lockstep base foreign tree twin last final where
  changes := second.changes
  folders := by
    intro location mem
    rcases second.folders location mem with ⟨same, same'⟩ | made
    · rw [same, same']
      exact first.folders location mem
    · exact .inr made

end Lockstep

variable {store : Store} {base : Location} {foreign : Location → Prop} {tree twin : FileTree}

/-- A write ends in both trees in the same way and leaves the same. -/
theorem lockstep_perform (at_root : tree.DirectoryAt store.root base)
    (changes : ChangesOnly base foreign tree twin) {write : FileWrite}
    (clear : write.location base ∉ folders base) :
    (store.perform write twin).2 = (store.perform write tree).2 ∧
      Lockstep base foreign tree twin (store.perform write tree).1 (store.perform write twin).1 := by
  have performed := performed_perform at_root write
  have performed' := performed_perform (changes.keepsDirectories.directoryAt at_root) write
  have same := changes.sameObstacles clear
  have outcome : write.outcome store base twin = write.outcome store base tree := same.outcome_eq store
  have enters : write.enters store base twin = write.enters store base tree := same.enters_eq store
  refine ⟨?_, ⟨?_, ?_, ?_⟩, ?_⟩
  · rw [performed.outcome, performed'.outcome, outcome]
  · intro location mem
    rw [performed.node?_eq, performed'.node?_eq, FileWrite.leaves_of_mem_folders clear mem,
      FileWrite.leaves_of_mem_folders clear mem, enters]
    split
    · exact .inl rfl
    · exact changes.folders location mem
  · intro location not_folder
    rw [performed.node?_eq, performed'.node?_eq, FileWrite.leaves_of_not_mem_folders not_folder,
      FileWrite.leaves_of_not_mem_folders not_folder, outcome]
    split
    · exact .inl rfl
    · exact changes.others location not_folder
  · rw [performed.workingDirectory, performed'.workingDirectory, changes.workingDirectory]
  · intro location mem
    rw [performed.node?_eq, performed'.node?_eq, FileWrite.leaves_of_mem_folders clear mem,
      FileWrite.leaves_of_mem_folders clear mem, enters]
    split
    · exact .inr ⟨rfl, rfl⟩
    · exact .inl ⟨rfl, rfl⟩

theorem lockstep_performAll (at_root : tree.DirectoryAt store.root base)
    (changes : ChangesOnly base foreign tree twin) {writes : List FileWrite}
    (clear : ∀ write ∈ writes, write.location base ∉ folders base) :
    (store.performAll writes twin).2 = (store.performAll writes tree).2 ∧
      Lockstep base foreign tree twin (store.performAll writes tree).1
        (store.performAll writes twin).1 := by
  induction writes generalizing tree twin with
  | nil => exact ⟨rfl, .refl changes⟩
  | cons write rest ih =>
    have keeps := (changesOnly_perform at_root (clear write List.mem_cons_self)).keepsDirectories
    obtain ⟨ends, first⟩ := lockstep_perform at_root changes (clear write List.mem_cons_self)
    rw [performAll, performAll]
    rcases performed : store.perform write tree with ⟨next, e | path⟩
    · rw [performed] at ends first
      obtain ⟨after, performed'⟩ : ∃ after, store.perform write twin = (after, .error e) :=
        ⟨_, Prod.ext rfl ends⟩
      rw [performed'] at first ⊢
      exact ⟨rfl, first⟩
    · rw [performed] at keeps ends first
      obtain ⟨after, performed'⟩ : ∃ after, store.perform write twin = (after, .ok path) :=
        ⟨_, Prod.ext rfl ends⟩
      rw [performed'] at first ⊢
      obtain ⟨runs, later⟩ := ih (keeps.directoryAt at_root) first.changes
        fun other mem => clear other (List.mem_cons_of_mem _ mem)
      dsimp only
      rw [runs]
      exact ⟨rfl, first.trans later⟩

theorem lockstep_createChainFiles (at_root : tree.DirectoryAt store.root base)
    (changes : ChangesOnly base foreign tree twin) (chain : Chain) :
    (store.createChainFiles chain twin).2 = (store.createChainFiles chain tree).2 ∧
      Lockstep base foreign tree twin (store.createChainFiles chain tree).1
        (store.createChainFiles chain twin).1 := by
  have clear : ∀ write ∈ chainWrites chain, write.location base ∉ folders base :=
    fun write mem => location_not_mem_folders mem base
  obtain ⟨runs, lockstep⟩ := lockstep_performAll at_root changes clear
  exact ⟨congrArg WriteRun.result runs, lockstep⟩

end Store

namespace Cleanup

open Store

variable {store : Store} {base : Location} {foreign : Location → Prop} {tree twin : FileTree}

/-- A path that leads to the same in both trees is removed from both, or from none of them. -/
theorem lockstep_removeOne (changes : ChangesOnly base foreign tree twin) {path : FilePath}
    (same : tree.SameAt twin path)
    (clear : ∀ location, tree.locate path = .ok location → location ∉ folders base) :
    (removeOne twin path).2 = (removeOne tree path).2 ∧
      Lockstep base foreign tree twin (removeOne tree path).1 (removeOne twin path).1 := by
  have outcomes := removeOne_congr same
  refine ⟨outcomes, ?_⟩
  unfold removeOne at outcomes ⊢
  rcases tree.remove_cases path with ⟨location, located, keeps, -, removed⟩ | ⟨-, e, failed⟩
  · rcases twin.remove_cases path with ⟨location', located', keeps', -, removed'⟩ | ⟨-, e, failed'⟩
    · rw [same.locate_eq, located] at located'
      obtain rfl := Except.ok.inj located'
      rw [removed, removed']
      have elsewhere : ∀ folder ∈ folders base, folder ≠ location := by
        rintro folder mem rfl
        exact clear folder located mem
      refine ⟨⟨?_, ?_, ?_⟩, ?_⟩
      · intro folder mem
        rw [FileTree.node?_erase keeps, FileTree.node?_erase keeps', if_neg (elsewhere folder mem),
          if_neg (elsewhere folder mem)]
        exact changes.folders folder mem
      · intro other not_folder
        rw [FileTree.node?_erase keeps, FileTree.node?_erase keeps']
        split
        · exact .inl rfl
        · exact changes.others other not_folder
      · rw [FileTree.workingDirectory_erase, FileTree.workingDirectory_erase, changes.workingDirectory]
      · intro folder mem
        rw [FileTree.node?_erase keeps, FileTree.node?_erase keeps', if_neg (elsewhere folder mem),
          if_neg (elsewhere folder mem)]
        exact .inl ⟨rfl, rfl⟩
    · rw [removed, failed'] at outcomes
      cases e <;> cases outcomes
  · rcases twin.remove_cases path with ⟨_, -, -, -, removed'⟩ | ⟨-, e', failed'⟩
    · rw [removed', failed] at outcomes
      cases e <;> cases outcomes
    · rw [failed, failed']
      cases e <;> cases e' <;> exact .refl changes

/-- Names are removed from a directory that is there in both trees. -/
theorem lockstep_removeNames {dir : FilePath} {location : Location}
    (at_location : tree.DirectoryAt dir location) (changes : ChangesOnly base foreign tree twin)
    {names : List String} (plain : ∀ name ∈ names, PlainName name)
    (clear : ∀ name ∈ names, location ++ [FileName.ofString name] ∉ folders base)
    (own : ∀ name ∈ names, ¬ foreign (location ++ [FileName.ofString name])) :
    (removeAll (names.map (dir / ·)) twin).2 = (removeAll (names.map (dir / ·)) tree).2 ∧
      Lockstep base foreign tree twin (removeAll (names.map (dir / ·)) tree).1
        (removeAll (names.map (dir / ·)) twin).1 := by
  induction names generalizing tree twin with
  | nil => exact ⟨rfl, .refl changes⟩
  | cons name rest ih =>
    have plain_name := plain name List.mem_cons_self
    have at_location' := changes.keepsDirectories.directoryAt at_location
    have leads : ∀ place, tree.locate (dir / name) = .ok place →
        place = location ++ [FileName.ofString name] := by
      intro place located
      rw [at_location.locate_join plain_name] at located
      exact FileTree.eq_of_childLocation located
    have same : tree.SameAt twin (dir / name) := by
      refine ⟨?_, fun place located => ?_⟩
      · rw [at_location.locate_join plain_name, at_location'.locate_join plain_name]
      · obtain rfl := leads place located
        exact changes.kept (clear name List.mem_cons_self) (own name List.mem_cons_self)
    obtain ⟨outcome, first⟩ := lockstep_removeOne changes same fun place located =>
      leads place located ▸ clear name List.mem_cons_self
    obtain ⟨outcomes, later⟩ := ih (directoryAt_removeOne at_location (dir / name)) first.changes
      (fun other mem => plain other (List.mem_cons_of_mem _ mem))
      (fun other mem => clear other (List.mem_cons_of_mem _ mem))
      fun other mem => own other (List.mem_cons_of_mem _ mem)
    rw [List.map_cons, removeAll, removeAll]
    dsimp only
    rw [outcome, outcomes]
    exact ⟨rfl, first.trans later⟩

section Document

variable (at_root : tree.DirectoryAt store.root base)

include at_root

/-- What a plain name in the directory of documents leads to depends on what is in the place of that
directory. -/
theorem locate_chains_join {name : String} (plain : PlainName name) :
    tree.locate (store.chainsDirectory / name) =
      (store.chainsDirectory / name).refusal?.elim
        (tree.step (chainsLocation base) (.name (FileName.ofString name))) .error := by
  have walked : tree.walk (tree.start store.chainsDirectory) store.chainsDirectory.components =
      .ok (chainsLocation base) := by
    rw [chainsDirectory, tree.walk_join plain_chainsFolder, at_root.walk_eq]
    simp only [Except.bind, FileTree.step_name at_root.directory,
      if_neg (Nat.not_lt.mpr short_chainsFolder)]
    rfl
  rw [tree.locate_join plain, walked, FilePath.refusal?]
  split
  · rfl
  split <;> rfl

/-- A file that is not there cannot be removed, whether or not the directory of documents is there. -/
theorem remove_chains_join_of_missing {name : String} (plain : PlainName name)
    (short : (FileName.ofString name).length ≤ FileTree.maxNameLength)
    (free : tree.isBlocked (chainsLocation base) = false)
    (missing : tree.node? (chainsLocation base ++ [FileName.ofString name]) = none) :
    tree.remove (store.chainsDirectory / name) =
      .error ((store.chainsDirectory / name).refusal?.getD .notFound) := by
  have located := locate_chains_join at_root plain
  cases refused : (store.chainsDirectory / name).refusal? with
  | some e =>
    rw [refused] at located
    exact FileTree.remove_of_error located
  | none =>
    rw [refused] at located
    rcases FileTree.isBlocked_eq_false.mp free with nothing | directory
    · refine FileTree.remove_of_error (located.trans ?_)
      rw [Option.elim_none, FileTree.step, nothing]
      rfl
    · rw [Option.elim_none, FileTree.step_name directory, if_neg (Nat.not_lt.mpr short)] at located
      rw [FileTree.remove_of_locate located, missing]
      rfl

/-- The document is removed from both trees, or from none of them. -/
theorem lockstep_removeDocument (changes : ChangesOnly base foreign tree twin) {name : String}
    (plain : PlainName name) (short : (FileName.ofString name).length ≤ FileTree.maxNameLength)
    (clear : chainsLocation base ++ [FileName.ofString name] ∉ folders base)
    (own : ¬ foreign (chainsLocation base ++ [FileName.ofString name])) :
    (removeOne twin (store.chainsDirectory / name)).2 =
        (removeOne tree (store.chainsDirectory / name)).2 ∧
      Lockstep base foreign tree twin (removeOne tree (store.chainsDirectory / name)).1
        (removeOne twin (store.chainsDirectory / name)).1 := by
  have at_root' := changes.keepsDirectories.directoryAt at_root
  have kept := changes.kept clear own
  rcases changes.folders (chainsLocation base) (chains_mem_folders base) with same | ⟨missing, made⟩
  · refine lockstep_removeOne changes ⟨?_, fun place located => ?_⟩ fun place located => ?_
    · rw [locate_chains_join at_root plain, locate_chains_join at_root' plain, FileTree.step_congr same]
    · rw [eq_of_locate_chains at_root plain located]
      exact kept
    · rw [eq_of_locate_chains at_root plain located]
      exact clear
  · -- Only the second tree has the directory of documents, and the document is in none of them.
    have nothing : tree.node? (chainsLocation base ++ [FileName.ofString name]) = none := by
      by_contra there
      have above := FileTree.directory_of_isSome (Option.isSome_iff_ne_none.mpr there)
      rw [missing] at above
      cases above
    have failed := remove_chains_join_of_missing at_root plain short
      (FileTree.isBlocked_eq_false.mpr (.inl missing)) nothing
    have failed' := remove_chains_join_of_missing at_root' plain short
      (FileTree.isBlocked_of_directory made) (kept.trans nothing)
    rw [removeOne, removeOne, failed, failed']
    generalize (store.chainsDirectory / name).refusal?.getD .notFound = e
    cases e <;> exact ⟨rfl, .refl changes⟩

end Document

section Scripts

/-- The directory of scripts can be listed if it is there, and something else in the place of it or of the
directory around it is no directory. -/
theorem list_scripts (at_root : tree.DirectoryAt store.root base) :
    tree.list store.scriptsDirectory =
      store.scriptsDirectory.refusal?.elim
        (if tree.isBlocked (chainsLocation base) || tree.isBlocked (scriptsLocation base) then
          .error .notDirectory
        else if tree.node? (scriptsLocation base) = some .directory then
          .ok (tree.names (scriptsLocation base))
        else .error .notFound) .error := by
  have located := locate_chains_join at_root plain_scriptsFolder
  change tree.locate store.scriptsDirectory = store.scriptsDirectory.refusal?.elim _ _ at located
  rw [FileTree.list, located]
  cases store.scriptsDirectory.refusal? with
  | some e => rfl
  | none =>
    have above (there : (tree.node? (scriptsLocation base)).isSome) :
        tree.node? (chainsLocation base) = some .directory := FileTree.directory_of_isSome there
    dsimp only [Option.elim_none]
    rcases chains : tree.node? (chainsLocation base) with _ | _ | _ | _
    · have scripts : tree.node? (scriptsLocation base) = none := by
        by_contra there
        rw [above (Option.isSome_iff_ne_none.mpr there)] at chains
        cases chains
      simp [FileTree.step, FileTree.isBlocked, chains, scripts, bind, Except.bind]
    · rw [FileTree.step_name chains, if_neg (Nat.not_lt.mpr short_scriptsFolder)]
      change Except.bind (.ok (scriptsLocation base)) _ = _
      rw [Except.bind]
      rcases scripts : tree.node? (scriptsLocation base) with _ | _ | _ | _ <;>
        simp [FileTree.isBlocked, chains, scripts]
    · simp [FileTree.step, FileTree.isBlocked, chains, bind, Except.bind]
    · simp [FileTree.step, FileTree.isBlocked, chains, bind, Except.bind]

variable {cleanup : Cleanup}
  (own : ∀ location, OwnFile base cleanup.chain cleanup.machine location → ¬ foreign location)

include own

/-- The same scripts are to be removed from both trees, also where only the second one has a directory of
scripts: none of them is in it then. -/
theorem staleNames_twin (changes : ChangesOnly base foreign tree twin) :
    cleanup.staleNames (twin.names (scriptsLocation base)) =
      cleanup.staleNames (tree.names (scriptsLocation base)) := by
  refine List.Perm.eq_of_pairwise (fun a b _ _ first second => ?_)
    (staleNames_sorted (twin.names_sorted _)) (staleNames_sorted (tree.names_sorted _)) ?_
  · exact absurd second first.not_before
  · refine (List.perm_ext_iff_of_nodup (staleNames_nodup (twin.names_sorted _))
      (staleNames_nodup (tree.names_sorted _))).mpr fun name => ?_
    rw [mem_staleNames, mem_staleNames, FileTree.mem_names, FileTree.mem_names]
    refine and_congr_left fun stale => ?_
    obtain ⟨number, read, -⟩ := isStale_iff.mp stale
    have file : OwnFile base cleanup.chain cleanup.machine (scriptLocation base name) := .of_chunk? read
    have kept := changes.kept file.not_mem_folders (own _ file)
    rw [scriptLocation] at kept
    rw [kept]

/-- A cleanup finds the same to remove in both trees, and the same obstacle. -/
theorem targets_twin (at_root : tree.DirectoryAt store.root base)
    (changes : ChangesOnly base foreign tree twin) :
    cleanup.targets store twin = cleanup.targets store tree := by
  have chains : twin.isBlocked (chainsLocation base) = tree.isBlocked (chainsLocation base) :=
    changes.isBlocked_eq (chains_mem_folders base)
  have scripts : twin.isBlocked (scriptsLocation base) = tree.isBlocked (scriptsLocation base) :=
    changes.isBlocked_eq (scripts_mem_folders base)
  have stale : cleanup.staleScripts store (twin.names (scriptsLocation base)) =
      cleanup.staleScripts store (tree.names (scriptsLocation base)) :=
    congrArg (List.map (store.scriptsDirectory / ·)) (staleNames_twin own changes)
  unfold targets
  rw [list_scripts (changes.keepsDirectories.directoryAt at_root), list_scripts at_root, chains, scripts]
  cases store.scriptsDirectory.refusal? with
  | some e => rfl
  | none =>
    dsimp only [Option.elim_none]
    cases tree.isBlocked (chainsLocation base) || tree.isBlocked (scriptsLocation base) with
    | true => rfl
    | false =>
      simp only [Bool.false_eq_true, if_false]
      rcases changes.folders (scriptsLocation base) (scripts_mem_folders base) with
        same | ⟨missing, made⟩
      · rw [same]
        split_ifs <;> simp [stale]
      · rw [tree.names_of_missing missing] at stale
        simp only [missing, made, stale, if_true, reduceCtorEq, if_false]
        rfl

/-- The scripts to be removed, if there are any, stand in a directory. -/
theorem lockstep_removeScripts (at_root : tree.DirectoryAt store.root base) {next after : FileTree}
    (keeps : tree.KeepsDirectories next) (later : ChangesOnly base foreign next after)
    (no_slash : '/' ∉ cleanup.machine.toList) :
    let paths := (cleanup.scriptNames store tree).map (store.scriptsDirectory / ·)
    (removeAll paths after).2 = (removeAll paths next).2 ∧
      Lockstep base foreign next after (removeAll paths next).1 (removeAll paths after).1 := by
  have stale {name : String} (mem : name ∈ cleanup.scriptNames store tree) :
      cleanup.Stale store tree name := mem_scriptNames.mp mem
  rcases cleanup.scriptNames_cases store tree with ⟨-, dir, located, directory, -⟩ | ⟨none, -⟩
  · obtain rfl : dir = scriptsLocation base := eq_of_locate_chains at_root plain_scriptsFolder located
    have at_scripts := keeps.directoryAt (directoryAt_scripts at_root directory)
    exact lockstep_removeNames at_scripts later (fun name mem => (stale mem).plainName no_slash)
      (fun name mem => ((stale mem).ownFile base).not_mem_folders)
      fun name mem => own _ ((stale mem).ownFile base)
  · rw [none]
    exact ⟨rfl, .refl later⟩

/-- A cleanup reports the same on both trees and removes the same files from them. -/
theorem lockstep_report (at_root : tree.DirectoryAt store.root base)
    (changes : ChangesOnly base foreign tree twin)
    (short : (FileName.ofString cleanup.documentName).length ≤ FileTree.maxNameLength) :
    (cleanup.report store twin).2 = (cleanup.report store tree).2 ∧
      Lockstep base foreign tree twin (cleanup.report store tree).1 (cleanup.report store twin).1 := by
  by_cases separator : HoldsSeparator cleanup.machine.toList
  · rw [cleanup.report_of_separator store tree separator,
      cleanup.report_of_separator store twin separator]
    exact ⟨rfl, .refl changes⟩
  · obtain ⟨no_slash, -⟩ := not_or.mp separator
    obtain ⟨obstacles, targets, -⟩ := cleanup.targets_eq store tree
    have targets' := (targets_twin own at_root changes).trans targets
    have document : OwnFile base cleanup.chain cleanup.machine
        (chainsLocation base ++ [FileName.ofString cleanup.documentName]) := .document cleanup.chunk
    obtain ⟨outcome, first⟩ := lockstep_removeDocument at_root changes
      (plainName_documentName no_slash) short document.not_mem_folders (own _ document)
    have keeps := keepsDirectories_removeOne tree (store.chainsDirectory / cleanup.documentName)
    obtain ⟨outcomes, later⟩ := lockstep_removeScripts own at_root keeps first.changes no_slash
    rw [report_of_targets separator targets, report_of_targets separator targets', removeAll, removeAll]
    dsimp only at outcomes later ⊢
    rw [outcome, outcomes]
    exact ⟨rfl, first.trans later⟩

end Scripts

end Cleanup

end ChunkedChain
