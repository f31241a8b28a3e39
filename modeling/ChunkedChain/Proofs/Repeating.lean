import ChunkedChain.Proofs.LifeCycle
import ChunkedChain.Proofs.StoppedRuns
import ChunkedChain.Proofs.Turns

/-!
# Chains that are written again

What a run leaves is in the way of no write of the same run, so a chain that is written once more ends as
it did before, and where it was stopped it is stopped again. It finds its directories made and its files with
the content that they are to get, so the tree stays as it is. And a run that is not stopped leaves the same in
its files on every tree, whatever was in them.
-/

namespace ChunkedChain

namespace FileWrite

theorem location_eq_append (write : FileWrite) (base : Location) :
    write.location base = base ++ write.location [] := by
  cases write <;> simp [location, parent, Store.scriptsLocation, Store.chainsLocation]

/-- Whether two writes go to one file does not depend on where the states root is. -/
theorem location_eq_iff (write other : FileWrite) (base root : Location) :
    write.location base = other.location base ↔ write.location root = other.location root := by
  rw [location_eq_append write, location_eq_append other, location_eq_append write root,
    location_eq_append other root, List.append_cancel_left_eq, List.append_cancel_left_eq]

end FileWrite

namespace Store

variable {store : Store} {tree after : FileTree} {base : Location}

/-- The run of a chain is the same on a tree in which other files stand, if the directories are the same. -/
theorem runChain_congr (at_root : tree.DirectoryAt store.root base) {files : Location → Prop}
    (changes : ChangesOnly base files tree after) (chain : Chain) :
    (store.runChain chain after).2 = (store.runChain chain tree).2 := by
  rw [Serving.runChain_eq_expected at_root,
    Serving.runChain_eq_expected (changes.keepsDirectories.directoryAt at_root)]
  refine WriteRun.expected_congr fun write mem => ?_
  exact (changes.sameObstacles (location_not_mem_folders mem base)).outcome_eq store

/-- A run that comes directly after the same run is the same and changes nothing. -/
theorem createChainFiles_twice (at_root : tree.DirectoryAt store.root base) (chain : Chain) :
    store.createChainFiles chain (store.createChainFiles chain tree).1 =
      store.createChainFiles chain tree := by
  have changes : ChangesOnly base (fun _ => True) tree (store.runChain chain tree).1 :=
    (changesOnly_createChainFiles at_root chain).mono fun _ _ => trivial
  have same := runChain_congr at_root changes chain
  have first := Serving.traces_runChain at_root chain
  have second := Serving.traces_runChain (changes.keepsDirectories.directoryAt at_root) chain
  rw [same] at second
  have clear : ∀ run ∈ [(store.runChain chain tree).2], ∀ write ∈ run.tried,
      write.location base ∉ folders base := by
    intro run of_run write tried
    obtain rfl := List.mem_singleton.mp of_run
    rw [Serving.runChain_eq_expected at_root] at tried
    exact location_not_mem_folders (WriteRun.tried_expected_subset _ _ tried) base
  have agree : ∀ location write write', LastAt base [(store.runChain chain tree).2] location write →
      LastAt base [(store.runChain chain tree).2] location write' → write.content = write'.content := by
    rintro location write write' ⟨run, of_run, last⟩ ⟨run', of_run', last'⟩
    obtain rfl := List.mem_singleton.mp of_run
    obtain rfl := List.mem_singleton.mp of_run'
    rw [Option.some.inj (last.symm.trans last')]
  have unchanged := first.again second changes clear agree
  exact Prod.ext unchanged (congrArg WriteRun.result same)

/-- The files of a chain have been written into a tree in which the states root is a directory. -/
structure WrittenInto (store : Store) (chain : Chain) (base : Location) (tree after : FileTree) : Prop where
  located : tree.locate store.root = .ok base
  directory : tree.node? base = some .directory
  succeeded : ∃ paths, store.createChainFiles chain tree = (after, .ok paths)

/-- The files of a chain hold the same on every tree that they have been written into. -/
structure FixedContents (store : Store) (chain : Chain) : Prop where
  documents : ∀ chunk ∈ compile chain, ∃ content, ∀ base tree after,
    store.WrittenInto chain base tree after →
      after.find (store.documentPath chain.id chain.target.machine chunk.number) = .ok (.file content)
  scripts : ∀ chunk ∈ compile chain, ∀ file ∈ chunk.scripts, ∃ content, ∀ base tree after,
    store.WrittenInto chain base tree after →
      after.find (store.scriptsDirectory / file.name) = .ok (.file content)

variable {chain : Chain}

namespace WrittenInto

variable (into : store.WrittenInto chain base tree after)

include into

theorem directoryAt_root : tree.DirectoryAt store.root base :=
  FileTree.directoryAt_of_locate into.located into.directory

theorem wroteAll : store.WroteAll base (chainWrites chain) tree after := by
  obtain ⟨paths, written⟩ := into.succeeded
  exact (wroteAll_of_createChainFiles into.directoryAt_root written).2

end WrittenInto

/-- A file gets the content of the last write that goes there, wherever the states root is. -/
theorem exists_content_of_mem (store : Store) {write : FileWrite} (mem : write ∈ chainWrites chain) :
    ∃ content, ∀ base tree after, store.WrittenInto chain base tree after →
      after.find (write.path store) = .ok (.file content) := by
  obtain ⟨front, last, back, split, here, alone⟩ := exists_last_of_mem mem []
  refine ⟨last.content, ?_⟩
  intro base tree after into
  have here : last.location base = write.location base :=
    (FileWrite.location_eq_iff last write base []).mpr here
  have alone : ∀ other ∈ back, other.location base ≠ write.location base :=
    fun other later => mt (FileWrite.location_eq_iff other write base []).mp (alone other later)
  exact into.wroteAll.find_eq into.directoryAt_root mem (into.wroteAll.node?_of_last split here alone)

theorem fixedContents (store : Store) (chain : Chain) : store.FixedContents chain where
  documents := by
    intro chunk h
    obtain ⟨content, fixed⟩ := exists_content_of_mem store (document_mem_chainWrites h)
    refine ⟨content, fun base tree after into => ?_⟩
    rw [documentPath, ← Chunk.fileName_eq h]
    exact fixed base tree after into
  scripts := by
    intro chunk h file mem
    have fixed := exists_content_of_mem store (script_mem_chainWrites h mem)
    rw [FileWrite.path_script] at fixed
    exact fixed

/-- Writing a chain once more is harmless: directly after the first time, it returns the same and leaves
the tree as it is, also if it was stopped. And what is in the files of a chain that has been written does not
depend on the tree. -/
theorem createChainFiles_again (store : Store) (chain : Chain) :
    (∀ (tree : FileTree) (base : Location), tree.locate store.root = .ok base →
      tree.node? base = some .directory →
        store.createChainFiles chain (store.createChainFiles chain tree).1 =
          store.createChainFiles chain tree) ∧
      store.FixedContents chain :=
  ⟨fun _ _ located directory =>
    createChainFiles_twice (FileTree.directoryAt_of_locate located directory) chain,
    fixedContents store chain⟩

theorem createChainFiles_again_twoChunks :
    blockedSecond.locate ⟨"salt"⟩ = .ok [FileName.ofString "salt"] ∧
    blockedSecond.node? [FileName.ofString "salt"] = some .directory ∧
    (∃ after, ∃ e, createChainFiles ⟨⟨"salt"⟩⟩ twoChunks blockedSecond = (after, .error e) ∧
      createChainFiles ⟨⟨"salt"⟩⟩ twoChunks after = (after, .error e)) ∧
    ∃ after, ∃ other,
      WrittenInto ⟨⟨"salt"⟩⟩ twoChunks [FileName.ofString "salt"] saltOnly after ∧
      WrittenInto ⟨⟨"salt"⟩⟩ twoChunks [FileName.ofString "salt"] earlierFiles other ∧
      ∀ chunk ∈ compile twoChunks,
        (∃ content,
          let path := documentPath ⟨⟨"salt"⟩⟩ 7 "m1" chunk.number
          after.find path = .ok (.file content) ∧ other.find path = .ok (.file content)) ∧
        ∀ file ∈ chunk.scripts, ∃ content,
          let path := scriptsDirectory ⟨⟨"salt"⟩⟩ / file.name
          after.find path = .ok (.file content) ∧ other.find path = .ok (.file content) := by
  have blocked_located : blockedSecond.locate ⟨"salt"⟩ = .ok [FileName.ofString "salt"] :=
    eq_ok_of_toOption (by decide +kernel)
  have blocked_directory : blockedSecond.node? [FileName.ofString "salt"] = some .directory := by
    decide +kernel
  have refused : (createChainFiles ⟨⟨"salt"⟩⟩ twoChunks blockedSecond).2 =
      .error (.write ⟨"salt/actionchains/actionchain_7_m1_2.sls"⟩ .isDirectory) := by
    decide +kernel
  obtain ⟨after, created⟩ := created_twoChunks
  have into_saltOnly : WrittenInto ⟨⟨"salt"⟩⟩ twoChunks [FileName.ofString "salt"] saltOnly after :=
    ⟨locate_saltOnly, directory_saltOnly, _, created⟩
  have into_earlierFiles : WrittenInto ⟨⟨"salt"⟩⟩ twoChunks [FileName.ofString "salt"] earlierFiles
      (createChainFiles ⟨⟨"salt"⟩⟩ twoChunks earlierFiles).1 :=
    ⟨eq_ok_of_toOption (by decide +kernel), by decide +kernel,
      [⟨"salt/actionchains/actionchain_7_m1_1.sls"⟩, ⟨"salt/actionchains/actionchain_7_m1_2.sls"⟩],
      eq_mk_of_snd (eq_ok_of_toOption (by decide +kernel))⟩
  obtain ⟨again, fixed⟩ := createChainFiles_again ⟨⟨"salt"⟩⟩ twoChunks
  refine ⟨blocked_located, blocked_directory, ⟨_, _, eq_mk_of_snd refused, ?_⟩,
    _, _, into_saltOnly, into_earlierFiles, fun chunk h => ⟨?_, fun file mem => ?_⟩⟩
  · rw [again _ _ blocked_located blocked_directory]
    exact eq_mk_of_snd refused
  · obtain ⟨content, same⟩ := fixed.documents chunk h
    exact ⟨content, same _ _ _ into_saltOnly, same _ _ _ into_earlierFiles⟩
  · obtain ⟨content, same⟩ := fixed.scripts chunk h file mem
    exact ⟨content, same _ _ _ into_saltOnly, same _ _ _ into_earlierFiles⟩

end Store

end ChunkedChain
