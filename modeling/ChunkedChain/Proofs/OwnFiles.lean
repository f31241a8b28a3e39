import ChunkedChain.Proofs.Changes
import ChunkedChain.Proofs.ScriptNames
import ChunkedChain.Proofs.StoppedRuns

/-!
# The files of a chain on a machine

Machine ids come from outside and go into the names of files. Whatever a machine is called, writing the
files of a chain and cleaning up after it keep to the files that are named after this chain on this
machine, right inside the directories of the store. A machine id with a separator is refused before
anything is touched.
-/

namespace ChunkedChain

namespace Store

/-- Where a document of a chain on a machine stands, or a script of it for any chunk and action. -/
inductive OwnFile (base : Location) (chain : UInt64) (machine : String) : Location → Prop where
  | document (number : UInt32) : OwnFile base chain machine (documentLocation base chain machine number)
  | script {chunk action : String} : Numeral.isNumeral chunk.toList = true →
      Numeral.isNumeral action.toList = true →
      OwnFile base chain machine (scriptLocation base
        (ScriptFile.stem chain machine ++ chunk ++ "_action_" ++ action ++ ".sh"))

namespace OwnFile

variable {base location : Location} {chain chain' : UInt64} {machine machine' : String}

theorem of_chunk? {name : String} {number : UInt32}
    (read : ScriptFile.chunk? name chain machine = some number) :
    OwnFile base chain machine (scriptLocation base name) := by
  obtain ⟨chunk, action, chunk_digits, action_digits, -, rfl⟩ := ScriptFile.chunk?_eq_some_iff.mp read
  exact .script chunk_digits action_digits

theorem of_nameOf (base : Location) (chain : UInt64) (machine : String) (number : UInt32)
    (action : UInt64) :
    OwnFile base chain machine (scriptLocation base (ScriptFile.nameOf chain machine number action)) := by
  have read := ScriptFile.chunk?_nameOf chain chain machine machine number action
  exact of_chunk? (read.trans (if_pos ⟨rfl, rfl⟩))

theorem not_mem_folders (own : OwnFile base chain machine location) : location ∉ folders base := by
  cases own with
  | document number => exact documentLocation_not_mem_folders base chain machine number
  | script => exact scriptLocation_not_mem_folders base _

theorem ne_deviceLocation (own : OwnFile base chain machine location) : location ≠ deviceLocation := by
  cases own with
  | document number => exact append_ne_deviceLocation (chains_mem_folders base) _
  | script => exact append_ne_deviceLocation (scripts_mem_folders base) _

/-- A file belongs to one chain on one machine, whatever the machines are called. -/
theorem owner_eq (own : OwnFile base chain machine location)
    (other : OwnFile base chain' machine' location) : chain = chain' ∧ machine = machine' := by
  generalize same : location = place at other
  cases own with
  | document number =>
    cases other with
    | document number' =>
      obtain ⟨chains, machines, -⟩ := documentLocation_inj same
      exact ⟨chains, machines⟩
    | script => exact absurd same (documentLocation_ne_scriptLocation _ _ _ _ _)
  | @script chunk action hc ha =>
    cases other with
    | document number' => exact absurd same.symm (documentLocation_ne_scriptLocation _ _ _ _ _)
    | @script chunk' action' hc' ha' =>
      have names := scriptLocation_inj same
      refine (ScriptFile.parts_inj hc hc' ha ha' ?_).1
      simpa [StateId.actionMark, ScriptFile.extension] using congrArg String.toList names

end OwnFile

section Create

variable {store : Store} {chain : Chain} {tree after : FileTree} {base : Location}

theorem ownFile_of_mem_chainWrites {write : FileWrite} (mem : write ∈ chainWrites chain)
    (base : Location) : OwnFile base chain.id chain.target.machine (write.location base) := by
  rcases mem_chainWrites_cases mem with ⟨number, steps, rfl⟩ | ⟨number, action, contents, rfl⟩
  · exact .document number
  · exact .of_nameOf base chain.id chain.target.machine number action

/-- The names of all files of a chain are refused if the machine holds a separator, and none of them is
otherwise. -/
theorem isFileName_iff_of_mem_chainWrites {write : FileWrite} (mem : write ∈ chainWrites chain) :
    isFileName write.name = true ↔ ¬ HoldsSeparator chain.target.machine.toList := by
  rcases mem_chainWrites_cases mem with ⟨number, steps, rfl⟩ | ⟨number, action, contents, rfl⟩
  · exact Chunk.isFileName_fileNameOf_iff chain.id number chain.target.machine
  · exact ScriptFile.isFileName_nameOf_iff chain.id chain.target.machine number action

theorem changesOnly_createChainFiles (at_root : tree.DirectoryAt store.root base) (chain : Chain) :
    ChangesOnly base (OwnFile base chain.id chain.target.machine) tree
      (store.createChainFiles chain tree).1 := by
  have clear : ∀ write ∈ chainWrites chain, write.location base ∉ folders base :=
    fun write mem => location_not_mem_folders mem base
  refine (changesOnly_performAll at_root clear).mono fun location => ?_
  rintro ⟨write, mem, rfl⟩
  exact ownFile_of_mem_chainWrites mem base

theorem chainWrites_ne_nil (chain : Chain) : chainWrites chain ≠ [] := by
  have length := length_compile chain
  obtain ⟨chunk, rest, chunks⟩ := List.exists_cons_of_length_eq_add_one length
  simp [chainWrites, chunks, Chunk.writes]

/-- The first file is refused already. -/
theorem createChainFiles_of_separator (store : Store) (tree : FileTree)
    (separator : HoldsSeparator chain.target.machine.toList) :
    ∃ name, store.createChainFiles chain tree = (tree, .error (.invalidFileName name)) := by
  obtain ⟨write, rest, writes⟩ := List.exists_cons_of_ne_nil (chainWrites_ne_nil chain)
  have mem : write ∈ chainWrites chain := writes ▸ List.mem_cons_self
  have refused : isFileName write.name = false := by
    rw [← Bool.not_eq_true, isFileName_iff_of_mem_chainWrites mem, not_not]
    exact separator
  have performed : store.perform write tree = (tree, .error (.invalidFileName write.name)) := by
    rw [perform_eq, writeFile, refused]
    rfl
  refine ⟨write.name, ?_⟩
  rw [createChainFiles, runChain, writes, performAll, performed]
  rfl

theorem holdsSeparator_of_invalidFileName (at_root : tree.DirectoryAt store.root base) {name : String}
    (refused : (store.createChainFiles chain tree).2 = .error (.invalidFileName name)) :
    HoldsSeparator chain.target.machine.toList := by
  obtain ⟨run, failed, ran, failure⟩ := failure_of_createChainFiles (Prod.ext rfl refused)
  obtain ⟨before, later, middle, split, wrote, stopped⟩ :=
    stopped_of_performAll at_root (apart_chainWrites base chain) ran failure
  have ends := (performed_perform (wrote.keepsDirectories.directoryAt at_root) failed).outcome
  rw [stopped] at ends
  have no_name := FileWrite.isFileName_of_invalidFileName ends.symm
  have mem : failed ∈ chainWrites chain := split ▸ List.mem_append_right _ List.mem_cons_self
  rw [← Bool.not_eq_true, isFileName_iff_of_mem_chainWrites mem, not_not] at no_name
  exact no_name

end Create

end Store

namespace Cleanup

open Store

variable {store : Store} {tree : FileTree} {base : Location}

theorem report_of_separator (cleanup : Cleanup) (store : Store) (tree : FileTree)
    (separator : HoldsSeparator cleanup.machine.toList) :
    cleanup.report store tree = (tree, .of [.refused cleanup.documentName]) := by
  have refused : isFileName cleanup.documentName = false := by
    rw [← Bool.not_eq_true, documentName, Chunk.isFileName_fileNameOf_iff, not_not]
    exact separator
  simp [report, run, refused]

theorem Stale.ownFile {cleanup : Cleanup} {name : String} (stale : cleanup.Stale store tree name)
    (base : Location) : OwnFile base cleanup.chain cleanup.machine (scriptLocation base name) := by
  obtain ⟨number, read, -⟩ := stale.later
  exact .of_chunk? read

theorem changesOnly_report (at_root : tree.DirectoryAt store.root base) (cleanup : Cleanup) :
    ChangesOnly base (OwnFile base cleanup.chain cleanup.machine) tree (cleanup.report store tree).1 := by
  by_cases separator : HoldsSeparator cleanup.machine.toList
  · rw [cleanup.report_of_separator store tree separator]
    exact .refl base _ tree
  · obtain ⟨no_slash, -⟩ := not_or.mp separator
    obtain ⟨obstacles, targets, -⟩ := cleanup.targets_eq store tree
    rw [report_of_targets separator targets]
    dsimp only
    refine changesOnly_removeAll at_root fun path mem other at_root location located => ?_
    suffices own : OwnFile base cleanup.chain cleanup.machine location from
      ⟨own.not_mem_folders, own.ne_deviceLocation, own⟩
    rcases List.mem_cons.mp mem with rfl | mem
    · rw [eq_of_locate_chains at_root (plainName_documentName no_slash) located]
      exact .document cleanup.chunk
    · obtain ⟨name, listed, rfl⟩ := List.mem_map.mp mem
      have stale := mem_scriptNames.mp listed
      rw [eq_of_locate_scripts at_root (stale.plainName no_slash) located]
      exact stale.ownFile base

end Cleanup

namespace Store

/-- The tree `after` is the tree with some files of the chain on the machine put in place or taken away,
and with directories of the store made. Nothing at all has changed if the machine holds a separator. -/
structure Confined (base : Location) (chain : UInt64) (machine : String) (tree after : FileTree) :
    Prop where
  changes : ChangesOnly base (OwnFile base chain machine) tree after
  refused : HoldsSeparator machine.toList → after = tree

/-- Neither writing nor cleaning up gets to anything but the own files of a chain on a machine, and only a
machine with a separator is refused for its name. -/
theorem runs_keep_to_own_files (store : Store) {tree : FileTree} {base : Location}
    (located : tree.locate store.root = .ok base) (directory : tree.node? base = some .directory)
    (id : UInt64) (machine : String) :
    (∀ (minion : String) (steps : List Step),
      Confined base id machine tree (store.createChainFiles ⟨id, ⟨minion, machine⟩, steps⟩ tree).1 ∧
      ((∃ name, (store.createChainFiles ⟨id, ⟨minion, machine⟩, steps⟩ tree).2 =
          .error (.invalidFileName name)) ↔ HoldsSeparator machine.toList)) ∧
    ∀ (number : UInt32) (failed : Bool),
      Confined base id machine tree ((Cleanup.mk id machine number failed).report store tree).1 := by
  have at_root := FileTree.directoryAt_of_locate located directory
  constructor
  · intro minion steps
    have refused : HoldsSeparator machine.toList → ∃ name,
        store.createChainFiles ⟨id, ⟨minion, machine⟩, steps⟩ tree =
          (tree, .error (.invalidFileName name)) :=
      fun separator => createChainFiles_of_separator store tree separator
    have changes := changesOnly_createChainFiles at_root ⟨id, ⟨minion, machine⟩, steps⟩
    refine ⟨⟨changes, fun separator => ?_⟩, ?_, fun separator => ?_⟩
    · obtain ⟨name, eq⟩ := refused separator
      rw [eq]
    · rintro ⟨name, failed⟩
      exact holdsSeparator_of_invalidFileName at_root failed
    · obtain ⟨name, eq⟩ := refused separator
      exact ⟨name, congrArg Prod.snd eq⟩
  · intro number failed
    have changes := Cleanup.changesOnly_report at_root ⟨id, machine, number, failed⟩
    refine ⟨changes, fun separator => ?_⟩
    rw [Cleanup.report_of_separator _ store tree separator]

theorem runs_keep_to_own_files_upwards :
    earlierFiles.locate ⟨"salt"⟩ = .ok [FileName.ofString "salt"] ∧
    earlierFiles.node? [FileName.ofString "salt"] = some .directory ∧
    (∀ (minion : String) (steps : List Step),
      Confined [FileName.ofString "salt"] 7 "../m1" earlierFiles
        (createChainFiles ⟨⟨"salt"⟩⟩ ⟨7, ⟨minion, "../m1"⟩, steps⟩ earlierFiles).1 ∧
      ((∃ name, (createChainFiles ⟨⟨"salt"⟩⟩ ⟨7, ⟨minion, "../m1"⟩, steps⟩ earlierFiles).2 =
          .error (.invalidFileName name)) ↔ HoldsSeparator "../m1".toList)) ∧
    ∀ (number : UInt32) (failed : Bool),
      Confined [FileName.ofString "salt"] 7 "../m1" earlierFiles
        ((Cleanup.mk 7 "../m1" number failed).report ⟨⟨"salt"⟩⟩ earlierFiles).1 := by
  have located : earlierFiles.locate ⟨"salt"⟩ = .ok [FileName.ofString "salt"] :=
    eq_ok_of_toOption (by decide +kernel)
  have directory : earlierFiles.node? [FileName.ofString "salt"] = some .directory := by decide +kernel
  exact ⟨located, directory, runs_keep_to_own_files ⟨⟨"salt"⟩⟩ located directory 7 "../m1"⟩

end Store

end ChunkedChain
