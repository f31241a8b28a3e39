import ChunkedChain.Proofs.Clearing
import ChunkedChain.Proofs.ScriptSources

/-!
# The life of a chain's files

The writer names scripts chunk by chunk, and a cleanup after a failure tells by the names it finds which
ones to remove. So when a chain fails in some chunk, the scripts that have been written for it and for later
chunks go, whatever else lies in the directory, and so do those of earlier compilations. What belongs to
earlier chunks stays, and so does everything that is not of this chain on this machine. Only a script that
no path leads to, for the length of the path, is left from before, and that is reported.
-/

namespace ChunkedChain

namespace Chunk

variable {chain : Chain} {chunk : Chunk}

theorem no_nul_of_fileNameOf {id : UInt64} {machine : String} {number : UInt32}
    (no_nul : '\x00' ∉ (fileNameOf id machine number).toList) : '\x00' ∉ machine.toList := by
  intro mem
  rw [toList_fileNameOf] at no_nul
  exact no_nul (List.mem_append_right _ (List.mem_append_right _
    (List.mem_cons_of_mem _ (List.mem_append_left _ mem))))

/-- The name of a document takes no fewer bytes than that of the directory of scripts. -/
theorem scriptsFolder_le_fileNameOf (id : UInt64) (machine : String) (number : UInt32) :
    scriptsFolder.utf8ByteSize ≤ (fileNameOf id machine number).utf8ByteSize := by
  have texts : "actionchain_".utf8ByteSize = 12 ∧ scriptsFolder.utf8ByteSize = 7 := by decide
  unfold fileNameOf
  simp only [String.utf8ByteSize_append]
  omega

/-- The name of a script of the chunk is read back as such. -/
theorem chunk?_of_mem_scripts (h : chunk ∈ compile chain) {file : ScriptFile}
    (mem : file ∈ chunk.scripts) :
    ScriptFile.chunk? file.name chain.id chain.target.machine = some chunk.number := by
  obtain ⟨segment, placed⟩ := exists_placedFrom h
  rw [chunk.scripts_eq] at mem
  obtain ⟨script, -, rfl⟩ := List.mem_map.mp mem
  rw [fileOf, scriptName, placed.chain_eq, placed.machine_eq, ScriptFile.chunk?_nameOf_self]

theorem fileOf_mem_scripts {action : UInt64} {kept : Script} (last : chunk.lastOf? action = some kept) :
    chunk.fileOf kept ∈ chunk.scripts ∧ kept.action = action := by
  obtain ⟨mem, own⟩ := List.mem_filter.mp (List.mem_of_getLast? last)
  rw [chunk.scripts_eq]
  exact ⟨List.mem_map_of_mem mem, of_decide_eq_true own⟩

theorem exists_mem_compile (chain : Chain) : ∃ chunk, chunk ∈ compile chain := by
  refine List.exists_mem_of_length_pos ?_
  rw [length_compile]
  exact Nat.succ_pos _

theorem exists_of_number (bound : chain.splits + 2 ≤ UInt32.size) {number : UInt32}
    (positive : 1 ≤ number.toNat) (small : number.toNat ≤ (compile chain).length) :
    ∃ chunk ∈ compile chain, chunk.number = number := by
  have at_i : (compile chain)[number.toNat - 1]? = some (compile chain)[number.toNat - 1] :=
    List.getElem?_eq_getElem (by omega)
  have number_i := number_compile bound at_i
  exact ⟨_, List.mem_of_getElem? at_i, UInt32.toNat_inj.mp (by omega)⟩

end Chunk

namespace FileWrite

theorem path_script (store : Store) (file : ScriptFile) :
    (script file).path store = store.scriptsDirectory / file.name := rfl

theorem location_script (base : Location) (file : ScriptFile) :
    (script file).location base = Store.scriptLocation base file.name := rfl

end FileWrite

namespace Store

variable {store : Store} {chain : Chain} {tree after : FileTree} {base : Location}

def cleanupOf (chain : Chain) (number : UInt32) (failed : Bool) : Cleanup :=
  ⟨chain.id, chain.target.machine, number, failed⟩

/-- What a cleanup of a chain's files leaves and reports, if the files had been written into `tree` and the
chain failed in the chunk with this number. -/
structure ClearedAfterFailure (store : Store) (chain : Chain) (base : Location) (tree : FileTree)
    (number : UInt32) (result : FileTree × CleanupReport) : Prop where
  document : result.1.find (store.documentPath chain.id chain.target.machine number) = .error .notFound
  scripts : ∀ chunk ∈ compile chain, number ≤ chunk.number → ∀ file ∈ chunk.scripts,
    store.scriptsDirectory / file.name ∈ result.2.removed ∧
      result.1.find (store.scriptsDirectory / file.name) = .error .notFound
  otherDocuments : ∀ chunk ∈ compile chain, chunk.number ≠ number →
    result.1.find (store.documentPath chain.id chain.target.machine chunk.number) =
      .ok (.file (renderDocument chunk.documentSteps).toUTF8)
  earlierScripts : ∀ chunk ∈ compile chain, chunk.number < number → ∀ action kept,
    chunk.lastOf? action = some kept →
    result.1.find (store.scriptsDirectory / chunk.scriptName action) =
      .ok (.file kept.contents.toUTF8)
  /-- Nothing else has changed since before the compilation, but for directories that had to be made. -/
  foreign : ∀ location, ¬ OwnFile base chain.id chain.target.machine location →
    result.1.node? location = tree.node? location ∨
      location ∈ folders base ∧ tree.node? location = none ∧
        result.1.node? location = some .directory
  /-- Of all the scripts for this chunk and for later ones, those are left that had been there before and
  that no path leads to. -/
  left : ∀ (later : UInt32) (action : UInt64) (content : ByteArray), number ≤ later →
    let name := ScriptFile.nameOf chain.id chain.target.machine later action
    result.1.node? (scriptLocation base name) = some (.file content) ↔
      tree.node? (scriptLocation base name) = some (.file content) ∧
        FileTree.OutOfReach store.scriptsDirectory name
  reported : ∀ (later : UInt32) (action : UInt64) (content : ByteArray), number ≤ later →
    let name := ScriptFile.nameOf chain.id chain.target.machine later action
    result.1.node? (scriptLocation base name) = some (.file content) →
      (store.scriptsDirectory / name, FileError.nameTooLong.message) ∈ result.2.errors

theorem document_mem_chainWrites {chunk : Chunk} (h : chunk ∈ compile chain) :
    FileWrite.document chunk.fileName chunk.documentSteps ∈ chainWrites chain :=
  mem_chainWrites.mpr ⟨chunk, h, .inr rfl⟩

theorem script_mem_chainWrites {chunk : Chunk} (h : chunk ∈ compile chain) {file : ScriptFile}
    (mem : file ∈ chunk.scripts) : FileWrite.script file ∈ chainWrites chain :=
  mem_chainWrites.mpr ⟨chunk, h, .inl ⟨file, mem, rfl⟩⟩

/-- Of the writes that go where one of them goes, there is a last one. -/
theorem exists_last_of_mem {writes : List FileWrite} {write : FileWrite} (mem : write ∈ writes)
    (base : Location) :
    ∃ front last back, writes = front ++ last :: back ∧ last.location base = write.location base ∧
      ∀ other ∈ back, other.location base ≠ write.location base := by
  have alike : write ∈ writes.filter fun other => other.location base = write.location base :=
    List.mem_filter.mpr ⟨mem, decide_eq_true rfl⟩
  obtain ⟨last, ends⟩ : ∃ last, (writes.filter fun other =>
      other.location base = write.location base).getLast? = some last :=
    ⟨_, List.getLast?_eq_some_getLast (List.ne_nil_of_mem alike)⟩
  obtain ⟨front, back, split, same, alone⟩ := split_of_getLast?_filter ends
  exact ⟨front, last, back, split, of_decide_eq_true same,
    fun other later => of_decide_eq_false (alone other later)⟩

section WroteSome

variable {writes : List FileWrite} (wrote : store.WroteAll base writes tree after)

include wrote

/-- What the last write to a place has left there. -/
theorem WroteAll.node?_of_last {front back : List FileWrite} {last : FileWrite} {location : Location}
    (split : writes = front ++ last :: back) (here : last.location base = location)
    (alone : ∀ other ∈ back, other.location base ≠ location) :
    after.node? location = some (.file last.content) := by
  subst here
  exact wrote.written front last back split alone

/-- Where a write goes, there is what one of the writes to the same place has left. -/
theorem WroteAll.exists_last {write : FileWrite} (mem : write ∈ writes) :
    ∃ last ∈ writes, last.location base = write.location base ∧
      after.node? (write.location base) = some (.file last.content) := by
  obtain ⟨front, last, back, split, here, alone⟩ := exists_last_of_mem mem base
  exact ⟨last, split ▸ List.mem_append_right _ List.mem_cons_self, here,
    wrote.node?_of_last split here alone⟩

theorem WroteAll.locate_path (at_root : tree.DirectoryAt store.root base) {write : FileWrite}
    (mem : write ∈ writes) : after.locate (write.path store) = .ok (write.location base) := by
  have at_directory := directoryAt_directory (wrote.keepsDirectories.directoryAt at_root) write
    (wrote.made write mem _ (write.parent_mem_directories base))
  exact (at_directory.locate_join (plainName_of_isFileName (wrote.isFileName write mem))).trans
    (wrote.named write mem)

end WroteSome

section WroteChain

variable (wrote : store.WroteAll base (chainWrites chain) tree after)

include wrote

theorem WroteAll.plain_machine : ¬ HoldsSeparator chain.target.machine.toList := by
  obtain ⟨chunk, h⟩ := Chunk.exists_mem_compile chain
  have mem := document_mem_chainWrites h
  exact (isFileName_iff_of_mem_chainWrites mem).mp (wrote.isFileName _ mem)

/-- A script file is there, with this script or with a later one of the same name. -/
theorem WroteAll.exists_content {chunk : Chunk} (h : chunk ∈ compile chain) {file : ScriptFile}
    (mem : file ∈ chunk.scripts) :
    ∃ content, after.node? (scriptLocation base file.name) = some (.file content) := by
  obtain ⟨last, -, -, there⟩ := wrote.exists_last (script_mem_chainWrites h mem)
  exact ⟨last.content, there⟩

/-- Nothing has been written where no path leads. -/
theorem WroteAll.node?_of_outOfReach {name : String}
    (far : FileTree.OutOfReach store.scriptsDirectory name) :
    after.node? (scriptLocation base name) = tree.node? (scriptLocation base name) := by
  refine wrote.kept _ ?_ ?_
  · intro write _ mem
    exact scriptLocation_not_mem_folders base name (write.directories_subset base mem)
  · intro write mem here
    have named := wrote.named write mem
    rcases mem_chainWrites_cases mem with ⟨number, steps, rfl⟩ | ⟨number, action, contents, rfl⟩
    · exact documentLocation_ne_scriptLocation _ _ _ _ _ here.symm
    · obtain rfl := scriptLocation_inj here
      exact (FileTree.childLocation_eq_ok.mp named).2.1 far

variable (at_root : tree.DirectoryAt store.root base)

include at_root

theorem WroteAll.directoryAt_root : after.DirectoryAt store.root base :=
  wrote.keepsDirectories.directoryAt at_root

/-- A cleanup leaves the directories where they are. -/
theorem WroteAll.keepsDirectories_report (cleanup : Cleanup) :
    after.KeepsDirectories (cleanup.report store after).1 :=
  (Cleanup.changesOnly_report (wrote.directoryAt_root at_root) cleanup).keepsDirectories

theorem WroteAll.locate_document {chunk : Chunk} (h : chunk ∈ compile chain) :
    after.locate (store.documentPath chain.id chain.target.machine chunk.number) =
      .ok (documentLocation base chain.id chain.target.machine chunk.number) := by
  have located := wrote.locate_path at_root (document_mem_chainWrites h)
  rw [location_document h] at located
  rw [documentPath, ← Chunk.fileName_eq h]
  exact located

theorem WroteAll.locate_script {chunk : Chunk} (h : chunk ∈ compile chain) {file : ScriptFile}
    (mem : file ∈ chunk.scripts) :
    after.locate (store.scriptsDirectory / file.name) = .ok (scriptLocation base file.name) := by
  have located := wrote.locate_path at_root (script_mem_chainWrites h mem)
  rw [FileWrite.path_script, FileWrite.location_script] at located
  exact located

/-- What is neither the document nor a script to be removed, by a path that leads there, stays. -/
theorem WroteAll.node?_report (number : UInt32) (failed : Bool) {location : Location}
    (no_document : location ≠ documentLocation base chain.id chain.target.machine number)
    (no_script : ∀ name, (cleanupOf chain number failed).Stale store after name →
      location = scriptLocation base name →
      after.locate (store.scriptsDirectory / name) ≠ .ok location) :
    ((cleanupOf chain number failed).report store after).1.node? location = after.node? location :=
  Cleanup.node?_report wrote.plain_machine (wrote.directoryAt_root at_root) no_document no_script

/-- The document of the chunk goes. -/
theorem WroteAll.document_gone (bound : chain.splits + 2 ≤ UInt32.size) {chunk : Chunk}
    (h : chunk ∈ compile chain) (failed : Bool) :
    ((cleanupOf chain chunk.number failed).report store after).1.node?
      (documentLocation base chain.id chain.target.machine chunk.number) = none := by
  have plain : ¬ HoldsSeparator (cleanupOf chain chunk.number failed).machine.toList :=
    wrote.plain_machine
  exact (Cleanup.gone_of_mem_paths plain List.mem_cons_self (wrote.locate_document at_root h)
    (wrote.document_at bound h)).2

/-- The documents of other chunks stay. -/
theorem WroteAll.document_kept (bound : chain.splits + 2 ≤ UInt32.size) {number : UInt32} {chunk : Chunk}
    (h : chunk ∈ compile chain) (other : chunk.number ≠ number) (failed : Bool) :
    ((cleanupOf chain number failed).report store after).1.node?
        (documentLocation base chain.id chain.target.machine chunk.number) =
      some (.file (renderDocument chunk.documentSteps).toUTF8) := by
  rw [← wrote.document_at bound h]
  refine wrote.node?_report at_root _ _ ?_ ?_
  · intro same
    exact other (documentLocation_inj same).2.2
  · intro name _ same
    exact absurd same (documentLocation_ne_scriptLocation _ _ _ _ _)

/-- Without a failure, nothing goes but the document. -/
theorem WroteAll.node?_report_of_success (bound : chain.splits + 2 ≤ UInt32.size) {chunk : Chunk}
    (h : chunk ∈ compile chain) (location : Location) :
    ((cleanupOf chain chunk.number false).report store after).1.node? location =
      if location = documentLocation base chain.id chain.target.machine chunk.number then none
      else after.node? location := by
  split
  · rename_i here
    rw [here]
    exact wrote.document_gone at_root bound h false
  · rename_i elsewhere
    refine wrote.node?_report at_root _ _ elsewhere ?_
    intro name stale
    exact absurd stale.failed Bool.false_ne_true

/-- The directory of scripts is in reach, as the documents are. -/
theorem WroteAll.locate_scriptsDirectory :
    after.locate store.scriptsDirectory = .ok (scriptsLocation base) := by
  obtain ⟨chunk, h⟩ := Chunk.exists_mem_compile chain
  have written := document_mem_chainWrites h
  have plain := plainName_of_isFileName (wrote.isFileName _ written)
  obtain ⟨no_nul, near, -⟩ := FileTree.childLocation_eq_ok.mp (wrote.named _ written)
  have no_nul_scripts : '\x00' ∉ (store.chainsDirectory / scriptsFolder).text.toList :=
    (FilePath.no_nul_join plain_scriptsFolder).mpr
      ⟨((FilePath.no_nul_join plain).mp no_nul).1, by decide⟩
  have near_scripts : ¬ FileTree.OutOfReach store.chainsDirectory scriptsFolder :=
    FileTree.not_outOfReach_of_le plain plain_scriptsFolder near (Chunk.scriptsFolder_le_fileNameOf _ _ _)
  have at_chains := directoryAt_chains (wrote.directoryAt_root at_root)
    (wrote.made _ written _ List.mem_cons_self)
  exact (at_chains.locate_join plain_scriptsFolder).trans
    (FileTree.childLocation_eq_ok.mpr ⟨no_nul_scripts, near_scripts, rfl⟩)

/-- What is there under a script name of the chain is to be removed. -/
theorem WroteAll.stale {name : String} {number later : UInt32}
    (read : ScriptFile.chunk? name chain.id chain.target.machine = some later) (le : number ≤ later)
    (there : (after.node? (scriptLocation base name)).isSome) :
    (cleanupOf chain number true).Stale store after name where
  failed := rfl
  entry := ⟨scriptsLocation base, wrote.locate_scriptsDirectory at_root,
    FileTree.directory_of_isSome there, there⟩
  later := ⟨later, read, le⟩

/-- The scripts of the chunk and of later ones go. -/
theorem WroteAll.script_gone {number : UInt32} {chunk : Chunk} (h : chunk ∈ compile chain)
    (le : number ≤ chunk.number) {file : ScriptFile} (mem : file ∈ chunk.scripts) :
    let result := (cleanupOf chain number true).report store after
    store.scriptsDirectory / file.name ∈ result.2.removed ∧
      result.1.node? (scriptLocation base file.name) = none := by
  obtain ⟨content, there⟩ := wrote.exists_content h mem
  have stale := wrote.stale at_root (Chunk.chunk?_of_mem_scripts h mem) le
    (Option.isSome_of_eq_some there)
  exact Cleanup.gone_of_mem_paths wrote.plain_machine (Cleanup.mem_paths_of_stale stale)
    (wrote.locate_script at_root h mem) there

/-- The scripts of earlier chunks stay. -/
theorem WroteAll.script_kept {number : UInt32} {chunk : Chunk} (h : chunk ∈ compile chain)
    (lt : chunk.number < number) {file : ScriptFile} (mem : file ∈ chunk.scripts) :
    ((cleanupOf chain number true).report store after).1.node? (scriptLocation base file.name) =
      after.node? (scriptLocation base file.name) := by
  refine wrote.node?_report at_root _ _ ?_ ?_
  · intro same
    exact documentLocation_ne_scriptLocation _ _ _ _ _ same.symm
  · intro name stale same
    obtain ⟨later, read, le⟩ := stale.later
    rw [← scriptLocation_inj same] at read
    obtain rfl := Option.some.inj ((Chunk.chunk?_of_mem_scripts h mem).symm.trans read)
    exact absurd lt (UInt32.not_lt.mpr le)

theorem WroteAll.find_script_kept (bound : chain.splits + 2 ≤ UInt32.size) {number : UInt32}
    {chunk : Chunk} (h : chunk ∈ compile chain) (lt : chunk.number < number) {action : UInt64}
    {kept : Script} (last : chunk.lastOf? action = some kept) :
    ((cleanupOf chain number true).report store after).1.find
        (store.scriptsDirectory / chunk.scriptName action) =
      .ok (.file kept.contents.toUTF8) := by
  obtain ⟨mem, rfl⟩ := Chunk.fileOf_mem_scripts last
  have located := wrote.locate_script at_root h mem
  have keeps_directories := wrote.keepsDirectories_report at_root (cleanupOf chain number true)
  rw [← wrote.find_lastOf at_root bound h last]
  change FileTree.find _ (store.scriptsDirectory / (chunk.fileOf kept).name) =
    after.find (store.scriptsDirectory / (chunk.fileOf kept).name)
  rw [FileTree.find_of_locate (keeps_directories.locate_eq located),
    FileTree.find_of_locate located, wrote.script_kept at_root h lt mem]

/-- No path to a script of the chain holds a NUL, as no path to a document does. -/
theorem WroteAll.no_nul_scriptPath (number : UInt32) (action : UInt64) :
    '\x00' ∉ (store.scriptsDirectory /
      ScriptFile.nameOf chain.id chain.target.machine number action).text.toList := by
  obtain ⟨chunk, h⟩ := Chunk.exists_mem_compile chain
  have no_slash := (not_or.mp wrote.plain_machine).1
  have no_nul := FileTree.no_nul_of_locate (wrote.locate_document at_root h)
  obtain ⟨no_nul_chains, no_nul_name⟩ :=
    (FilePath.no_nul_join (Chunk.plainName_fileNameOf _ _ no_slash)).mp no_nul
  rw [FilePath.no_nul_join (ScriptFile.plainName_nameOf no_slash), scriptsDirectory,
    FilePath.no_nul_join plain_scriptsFolder]
  exact ⟨⟨no_nul_chains, by decide⟩,
    ScriptFile.no_nul_nameOf (Chunk.no_nul_of_fileNameOf no_nul_name)⟩

section Left

variable {number later : UInt32} {action : UInt64}

/-- A script for which there is no path stays as it was before the chain was compiled. -/
theorem WroteAll.left_of_outOfReach
    (far : FileTree.OutOfReach store.scriptsDirectory
      (ScriptFile.nameOf chain.id chain.target.machine later action)) (failed : Bool) :
    ((cleanupOf chain number failed).report store after).1.node? (scriptLocation base
        (ScriptFile.nameOf chain.id chain.target.machine later action)) =
      tree.node? (scriptLocation base
        (ScriptFile.nameOf chain.id chain.target.machine later action)) := by
  rw [← wrote.node?_of_outOfReach far]
  refine wrote.node?_report at_root _ _ ?_ ?_
  · intro same
    exact documentLocation_ne_scriptLocation _ _ _ _ _ same.symm
  · intro name stale same located
    obtain ⟨dir, located_dir, directory, -⟩ := stale.entry
    obtain rfl := Except.ok.inj ((wrote.locate_scriptsDirectory at_root).symm.trans located_dir)
    have at_scripts := directoryAt_scripts (wrote.directoryAt_root at_root) directory
    rw [at_scripts.locate_join (stale.plainName (not_or.mp wrote.plain_machine).1)] at located
    rw [scriptLocation_inj same] at far
    exact (FileTree.childLocation_eq_ok.mp located).2.1 far

variable {content : ByteArray} (le : number ≤ later)
  (left : ((cleanupOf chain number true).report store after).1.node? (scriptLocation base
    (ScriptFile.nameOf chain.id chain.target.machine later action)) = some (.file content))

include le left

/-- A script of the chunk or of a later one that is left is out of reach, and that is reported. -/
theorem WroteAll.outOfReach_of_left :
    FileTree.OutOfReach store.scriptsDirectory
        (ScriptFile.nameOf chain.id chain.target.machine later action) ∧
      (store.scriptsDirectory / ScriptFile.nameOf chain.id chain.target.machine later action,
          FileError.nameTooLong.message) ∈
        ((cleanupOf chain number true).report store after).2.errors := by
  have plain := wrote.plain_machine
  have no_nul := wrote.no_nul_scriptPath at_root later action
  have there := Cleanup.node?_of_report plain left
  have mem := Cleanup.mem_paths_of_stale
    (wrote.stale at_root ScriptFile.chunk?_nameOf_self le (Option.isSome_of_eq_some there))
  have at_scripts := directoryAt_scripts (wrote.directoryAt_root at_root)
    (FileTree.directory_of_isSome (Option.isSome_of_eq_some there))
  have plain_name : PlainName (ScriptFile.nameOf chain.id chain.target.machine later action) :=
    ScriptFile.plainName_nameOf (not_or.mp plain).1
  have located := at_scripts.locate_join plain_name
  by_cases far : FileTree.OutOfReach store.scriptsDirectory
      (ScriptFile.nameOf chain.id chain.target.machine later action)
  · rw [FileTree.childLocation_of_outOfReach no_nul far] at located
    exact ⟨far, Cleanup.error_of_mem_paths plain mem (FileTree.remove_of_error located) (by decide)⟩
  · rw [FileTree.childLocation_eq_ok.mpr ⟨no_nul, far, rfl⟩] at located
    have gone := (Cleanup.gone_of_mem_paths plain mem located there).2
    cases left.symm.trans gone

end Left

end WroteChain

/-- The files of a chain through writing and cleaning up. After a failure, what was to be run from the chunk
on is gone; without one, only the document is. -/
theorem cleanup_after_createChainFiles (store : Store) (chain : Chain)
    (bound : chain.splits ≤ UInt32.size - 2) {tree after : FileTree} {base : Location}
    (located : tree.locate store.root = .ok base) (directory : tree.node? base = some .directory)
    {paths : List FilePath} (written : store.createChainFiles chain tree = (after, .ok paths))
    {number : UInt32} (positive : 1 ≤ number.toNat) (small : number.toNat ≤ (compile chain).length) :
    store.ClearedAfterFailure chain base tree number
        ((cleanupOf chain number true).report store after) ∧
      ∀ location, ((cleanupOf chain number false).report store after).1.node? location =
        if location = documentLocation base chain.id chain.target.machine number then none
        else after.node? location := by
  have bound := chain.splits_add_two_le bound
  have at_root := FileTree.directoryAt_of_locate located directory
  obtain ⟨-, wrote⟩ := wroteAll_of_createChainFiles at_root written
  obtain ⟨chunk, h, rfl⟩ := Chunk.exists_of_number bound positive small
  have keeps := wrote.keepsDirectories_report at_root (cleanupOf chain chunk.number true)
  refine ⟨⟨?document, ?scripts, ?otherDocuments, ?earlierScripts, ?foreign, ?left, ?reported⟩,
    wrote.node?_report_of_success at_root bound h⟩
  case document =>
    rw [FileTree.find_of_locate (keeps.locate_eq (wrote.locate_document at_root h)),
      wrote.document_gone at_root bound h]
  case scripts =>
    intro later mem le file mem_file
    obtain ⟨removed, gone⟩ := wrote.script_gone at_root mem le mem_file
    refine ⟨removed, ?_⟩
    rw [FileTree.find_of_locate (keeps.locate_eq (wrote.locate_script at_root mem mem_file)), gone]
  case otherDocuments =>
    intro other mem apart
    rw [FileTree.find_of_locate (keeps.locate_eq (wrote.locate_document at_root mem)),
      wrote.document_kept at_root bound mem apart]
  case earlierScripts =>
    intro earlier mem lt action kept last
    exact wrote.find_script_kept at_root bound mem lt last
  case foreign =>
    intro location foreign
    have created := changesOnly_createChainFiles at_root chain
    rw [written] at created
    have changes := created.trans
      (Cleanup.changesOnly_report (wrote.directoryAt_root at_root) (cleanupOf chain chunk.number true))
    by_cases folder : location ∈ folders base
    · exact (changes.folders location folder).imp_right fun made => ⟨folder, made⟩
    · exact .inl (changes.kept folder foreign)
  case left =>
    intro later action content le
    constructor
    · intro left
      have far := (wrote.outOfReach_of_left at_root le left).1
      rw [← wrote.left_of_outOfReach at_root far true]
      exact ⟨left, far⟩
    · rintro ⟨before, far⟩
      exact (wrote.left_of_outOfReach at_root far true).trans before
  case reported =>
    intro later action content le name left
    exact (wrote.outOfReach_of_left at_root le left).2

/-- A chain with scripts before and after a reboot. -/
def scriptsAroundReboot : Chain where
  id := 7
  target := ⟨"node", "m1"⟩
  steps :=
    [.state ⟨"a", .script ⟨4, "echo a", none, none, none⟩, .empty⟩, .state ⟨"b", .reboot 3, .empty⟩,
      .state ⟨"c", .script ⟨5, "echo c", none, none, none⟩, .empty⟩]

/-- A tree with a script of an earlier compilation into three chunks, and one of another machine. -/
def earlierScripts : FileTree :=
  let salt := [FileName.ofString "salt"]
  let file := Node.file "old".toUTF8
  ((((FileTree.empty.putAt salt .directory).putAt (chainsLocation salt) .directory).putAt
    (scriptsLocation salt) .directory).putAt
    (scriptLocation salt (ScriptFile.nameOf 7 "m1" 3 6)) file).putAt
    (scriptLocation salt (ScriptFile.nameOf 7 "m2" 3 6)) file

theorem cleanup_after_scriptsAroundReboot :
    scriptsAroundReboot.splits ≤ UInt32.size - 2 ∧
    earlierScripts.locate ⟨"salt"⟩ = .ok [FileName.ofString "salt"] ∧
    earlierScripts.node? [FileName.ofString "salt"] = some .directory ∧
    1 ≤ (2 : UInt32).toNat ∧ (2 : UInt32).toNat ≤ (compile scriptsAroundReboot).length ∧
    ∃ after, ∃ paths,
      createChainFiles ⟨⟨"salt"⟩⟩ scriptsAroundReboot earlierScripts = (after, .ok paths) ∧
      ClearedAfterFailure ⟨⟨"salt"⟩⟩ scriptsAroundReboot [FileName.ofString "salt"] earlierScripts 2
        ((cleanupOf scriptsAroundReboot 2 true).report ⟨⟨"salt"⟩⟩ after) ∧
      ∀ location,
        ((cleanupOf scriptsAroundReboot 2 false).report ⟨⟨"salt"⟩⟩ after).1.node? location =
          if location = documentLocation [FileName.ofString "salt"] 7 "m1" 2 then none
          else after.node? location := by
  have one : scriptsAroundReboot.splits = 1 := by decide +kernel
  have bound : scriptsAroundReboot.splits ≤ UInt32.size - 2 := by
    rw [one]
    decide
  have located : earlierScripts.locate ⟨"salt"⟩ = .ok [FileName.ofString "salt"] :=
    eq_ok_of_toOption (by decide +kernel)
  have directory : earlierScripts.node? [FileName.ofString "salt"] = some .directory := by
    decide +kernel
  have two : (2 : UInt32).toNat ≤ (compile scriptsAroundReboot).length := by
    rw [length_compile, one]
    decide
  obtain ⟨paths, created⟩ : ∃ paths,
      (createChainFiles ⟨⟨"salt"⟩⟩ scriptsAroundReboot earlierScripts).2 = .ok paths :=
    ⟨[⟨"salt/actionchains/actionchain_7_m1_1.sls"⟩, ⟨"salt/actionchains/actionchain_7_m1_2.sls"⟩],
      eq_ok_of_toOption (by decide +kernel)⟩
  have written := eq_mk_of_snd created
  obtain ⟨failed, succeeded⟩ := cleanup_after_createChainFiles ⟨⟨"salt"⟩⟩ scriptsAroundReboot bound
    located directory written (by decide) two
  exact ⟨bound, located, directory, by decide, two, _, paths, written, failed, succeeded⟩

/-- A single document is written if it is in reach, and nothing is where it goes. -/
theorem createChainFiles_of_document (at_root : tree.DirectoryAt store.root base) {name : String}
    {steps : List Step} (writes : chainWrites chain = [.document name steps])
    (is_name : isFileName name = true) (free : store.chainsDirectory.refusal? = none)
    (directory : tree.node? (chainsLocation base) = some .directory)
    (named : FileTree.childLocation store.chainsDirectory (chainsLocation base) name =
      .ok (chainsLocation base ++ [FileName.ofString name]))
    (missing : tree.node? (chainsLocation base ++ [FileName.ofString name]) = none) :
    ∃ after, store.createChainFiles chain tree = (after, .ok [store.chainsDirectory / name]) := by
  have blockage : (FileWrite.document name steps).blockage? store base tree = none := by
    rw [FileWrite.blockage?_document, FileTree.isBlocked_of_directory directory, free]
    rfl
  have refusal : (FileWrite.document name steps).refusal? store base tree = none := by
    change tree.refusal? store.chainsDirectory (chainsLocation base) name = none
    rw [FileTree.refusal?, named]
    dsimp only
    rw [missing]
    rfl
  have ends : (FileWrite.document name steps).outcome store base tree =
      .ok (store.chainsDirectory / name) := by
    rw [FileWrite.outcome, blockage, refusal]
    exact if_pos is_name
  have performed := (performed_perform at_root (.document name steps)).outcome.trans ends
  refine ⟨(store.perform (.document name steps) tree).1, ?_⟩
  rw [createChainFiles, runChain, writes, performAll, eq_mk_of_snd performed]
  rfl

/-- A states root with so many slashes after it that documents are in reach and scripts are not. -/
def slashedSalt : Store := ⟨FilePath.withSlashes ⟨"salt"⟩ 4036⟩

def pingOnly : Chain where
  id := 7
  target := ⟨"node", "m1"⟩
  steps := [.state ⟨"a", .run "test.ping" [] none, .empty⟩]

theorem writes_pingOnly : ∃ steps, chainWrites pingOnly = [.document "actionchain_7_m1_1.sls" steps] := by
  have names : (chainWrites pingOnly).map (fun write => (write.script?.isSome, write.name)) =
      [(false, "actionchain_7_m1_1.sls")] := by decide +kernel
  obtain ⟨write, writes, of_write⟩ := List.map_eq_singleton_iff.mp names
  cases write with
  | script file => cases (Prod.mk.inj of_write).1
  | document name steps =>
    obtain rfl := (Prod.mk.inj of_write).2
    exact ⟨steps, writes⟩

theorem fits_slashedSalt : '\x00' ∉ slashedSalt.chainsDirectory.text.toList ∧
    4052 ≤ slashedSalt.chainsDirectory.text.utf8ByteSize ∧
    slashedSalt.chainsDirectory.text.utf8ByteSize ≤ 4053 := by
  have salt : "salt".utf8ByteSize = 4 := by decide
  have folder : chainsFolder.utf8ByteSize = 12 := by decide
  have no_nul : '\x00' ∉ slashedSalt.root.text.toList := by
    rw [slashedSalt, FilePath.toList_withSlashes, List.mem_append, not_or]
    exact ⟨by decide, fun mem => absurd (List.eq_of_mem_replicate mem) (by decide)⟩
  have root : slashedSalt.root.text.utf8ByteSize = "salt".utf8ByteSize + 4036 :=
    FilePath.utf8ByteSize_withSlashes ⟨"salt"⟩ 4036
  have sizes := slashedSalt.root.utf8ByteSize_join plain_chainsFolder
  rw [root, salt, folder] at sizes
  exact ⟨(FilePath.no_nul_join plain_chainsFolder).mpr ⟨no_nul, by decide⟩, sizes⟩

theorem directoryAt_slashedSalt :
    earlierScripts.DirectoryAt slashedSalt.root [FileName.ofString "salt"] := by
  have located : earlierScripts.locate ⟨"salt"⟩ = .ok [FileName.ofString "salt"] :=
    eq_ok_of_toOption (by decide +kernel)
  have directory : earlierScripts.node? [FileName.ofString "salt"] = some .directory := by
    decide +kernel
  exact (FileTree.directoryAt_of_locate located directory).withSlashes (by decide) 4036

theorem locate_slashedSalt :
    earlierScripts.locate slashedSalt.root = .ok [FileName.ofString "salt"] := by
  obtain ⟨no_nul, -, le⟩ := fits_slashedSalt
  have size := (slashedSalt.root.utf8ByteSize_join plain_chainsFolder).1
  have fits : slashedSalt.root.refusal? = none := by
    refine FilePath.refusal?_eq_none.mpr ⟨((FilePath.no_nul_join plain_chainsFolder).mp no_nul).1, ?_⟩
    exact Nat.le_trans (Nat.le_trans (Nat.le_add_right _ _) size) (Nat.le_trans le (by decide))
  refine directoryAt_slashedSalt.locate_eq fits fun empty => ?_
  have front := congrArg String.toList empty
  rw [slashedSalt, FilePath.toList_withSlashes] at front
  exact absurd (List.append_eq_nil_iff.mp front).1 (by decide)

theorem created_slashedSalt : ∃ after, slashedSalt.createChainFiles pingOnly earlierScripts =
    (after, .ok [slashedSalt.chainsDirectory / "actionchain_7_m1_1.sls"]) := by
  obtain ⟨steps, writes⟩ := writes_pingOnly
  obtain ⟨no_nul, -, le⟩ := fits_slashedSalt
  have plain : PlainName "actionchain_7_m1_1.sls" := .of_length (by decide) (by decide)
  have size : "actionchain_7_m1_1.sls".utf8ByteSize = 22 := by decide
  have near : ¬ FileTree.OutOfReach slashedSalt.chainsDirectory "actionchain_7_m1_1.sls" := by
    have sizes := slashedSalt.chainsDirectory.utf8ByteSize_join plain
    rintro (long | long)
    · rw [FilePath.maxLength] at long
      omega
    · exact absurd long (by decide)
  exact createChainFiles_of_document directoryAt_slashedSalt writes (by decide)
    (FilePath.refusal?_eq_none.mpr ⟨no_nul, Nat.le_trans le (by decide)⟩) (by decide +kernel)
    (FileTree.childLocation_eq_ok.mpr ⟨(FilePath.no_nul_join plain).mpr ⟨no_nul, by decide⟩, near, rfl⟩)
    (by decide +kernel)

/-- The script of an earlier compilation survives a failure in the first chunk, as no path leads to it. -/
theorem cleanup_leaves_slashedScript :
    pingOnly.splits ≤ UInt32.size - 2 ∧
    earlierScripts.locate slashedSalt.root = .ok [FileName.ofString "salt"] ∧
    earlierScripts.node? [FileName.ofString "salt"] = some .directory ∧
    1 ≤ (1 : UInt32).toNat ∧ (1 : UInt32).toNat ≤ (compile pingOnly).length ∧
    ∃ after, ∃ paths, slashedSalt.createChainFiles pingOnly earlierScripts = (after, .ok paths) ∧
      ((cleanupOf pingOnly 1 true).report slashedSalt after).1.node?
          (scriptLocation [FileName.ofString "salt"] (ScriptFile.nameOf 7 "m1" 3 6)) =
        some (.file "old".toUTF8) := by
  have none : pingOnly.splits = 0 := by decide +kernel
  have some_chunk : (1 : UInt32).toNat ≤ (compile pingOnly).length := by
    rw [length_compile, none]
    decide
  have there : earlierScripts.node? (scriptLocation [FileName.ofString "salt"]
      (ScriptFile.nameOf 7 "m1" 3 6)) = some (.file "old".toUTF8) := by decide +kernel
  have far : FileTree.OutOfReach slashedSalt.scriptsDirectory (ScriptFile.nameOf 7 "m1" 3 6) := by
    have name : (ScriptFile.nameOf 7 "m1" 3 6).utf8ByteSize = 48 := by decide +kernel
    have plain : PlainName (ScriptFile.nameOf 7 "m1" 3 6) := ScriptFile.plainName_nameOf (by decide)
    have sizes := (slashedSalt.scriptsDirectory.utf8ByteSize_join plain).1
    have sizes_scripts := (slashedSalt.chainsDirectory.utf8ByteSize_join plain_scriptsFolder).1
    have above := fits_slashedSalt.2.1
    refine .inl ?_
    rw [FilePath.maxLength]
    change _ ≤ slashedSalt.scriptsDirectory.text.utf8ByteSize at sizes_scripts
    omega
  obtain ⟨after, written⟩ := created_slashedSalt
  obtain ⟨-, wrote⟩ := wroteAll_of_createChainFiles directoryAt_slashedSalt written
  refine ⟨none ▸ Nat.zero_le _, locate_slashedSalt, directoryAt_slashedSalt.directory, by decide,
    some_chunk, after, _, written, ?_⟩
  exact (wrote.left_of_outOfReach directoryAt_slashedSalt far true).trans there

end Store

end ChunkedChain
