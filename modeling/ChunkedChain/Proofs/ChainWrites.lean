import ChunkedChain.Proofs.Chunking
import ChunkedChain.Proofs.FileNames
import ChunkedChain.Proofs.Writing

/-!
# The writes of a chain

The writes of a chain go to the document of each chunk and to the scripts, and no file of them takes the
place of a directory. No two chunks share a document, so after all writes every document is there, and
every script file holds the last script of its name.
-/

namespace ChunkedChain

namespace Chunk

theorem fileName_eq {chain : Chain} {chunk : Chunk} (h : chunk ∈ compile chain) :
    chunk.fileName = fileNameOf chain.id chain.target.machine chunk.number := by
  obtain ⟨segment, placed⟩ := exists_placedFrom h
  rw [fileName, placed.chain_eq, placed.machine_eq]

end Chunk

namespace Step

def script? : Step → Option Script
  | .state ⟨_, .script script, _⟩ => some script
  | _ => none

theorem Compiled.script?_eq {place : Place} {input output : Step}
    (compiled : Compiled place input output) :
    output.script? = input.script?.map place.placeScript := by
  cases compiled with
  | mark => rfl
  | @state s t _ _ task _ _ =>
    obtain ⟨_, input_task, _⟩ := s
    obtain ⟨_, output_task, _⟩ := t
    obtain rfl : output_task = place.placeTask input_task := task
    cases input_task <;> rfl

end Step

theorem Place.scriptFile?_eq (place : Place) (step : Step) :
    place.scriptFile? step = step.script?.map fun script =>
      ⟨ScriptFile.nameOf place.chain place.machine place.chunk script.action, script.contents⟩ := by
  rcases step with ⟨_, _ | _ | _, _⟩ | _ <;> rfl

namespace Chunk

def stepScripts (chunk : Chunk) : List Script := chunk.steps.filterMap Step.script?

def scriptName (chunk : Chunk) (action : UInt64) : String :=
  ScriptFile.nameOf chunk.chain chunk.machine chunk.number action

def fileOf (chunk : Chunk) (script : Script) : ScriptFile :=
  ⟨chunk.scriptName script.action, script.contents⟩

theorem scripts_eq (chunk : Chunk) : chunk.scripts = chunk.stepScripts.map chunk.fileOf := by
  rw [scripts, stepScripts, List.map_filterMap]
  exact congrArg (List.filterMap · chunk.steps) (funext chunk.place.scriptFile?_eq)

end Chunk

/-- There is a script to write exactly if the chain has a step with a script. -/
theorem exists_mem_scripts_iff (chain : Chain) :
    (∃ chunk ∈ compile chain, ∃ file, file ∈ chunk.scripts) ↔
      ∃ step ∈ chain.steps, ∃ script, step.script? = some script := by
  have placed := placedFrom_compile chain
  constructor
  · rintro ⟨chunk, mem, file, written⟩
    obtain ⟨segment, cut, placed⟩ := forall₂_exists_of_mem placed.flip mem
    rw [chunk.scripts_eq] at written
    obtain ⟨script, written, -⟩ := List.mem_map.mp written
    obtain ⟨output, output_mem, of_output⟩ := List.mem_filterMap.mp written
    obtain ⟨input, input_mem, compiled⟩ := forall₂_exists_of_mem placed.compiled.flip output_mem
    rw [compiled.script?_eq, Option.map_eq_some_iff] at of_output
    obtain ⟨own, of_input, -⟩ := of_output
    rw [← flatten_segments chain.steps]
    exact ⟨input, List.mem_flatten_of_mem cut input_mem, own, of_input⟩
  · rintro ⟨input, mem, script, of_input⟩
    rw [← flatten_segments chain.steps] at mem
    obtain ⟨segment, cut, input_mem⟩ := List.mem_flatten.mp mem
    obtain ⟨chunk, mem, placed⟩ := forall₂_exists_of_mem placed cut
    obtain ⟨output, output_mem, compiled⟩ := forall₂_exists_of_mem placed.compiled input_mem
    have of_output := compiled.script?_eq.trans (congrArg _ of_input)
    have mem_script := List.mem_filterMap.mpr ⟨output, output_mem, of_output⟩
    exact ⟨chunk, mem, _, chunk.scripts_eq ▸ List.mem_map_of_mem mem_script⟩

namespace FileWrite

def script? : FileWrite → Option ScriptFile
  | .script file => some file
  | .document _ _ => none

theorem eq_script {write : FileWrite} {file : ScriptFile} (h : write.script? = some file) :
    write = .script file := by
  cases write with
  | script other => exact congrArg script (Option.some.inj h)
  | document name steps => cases h

end FileWrite

namespace Store

variable {store : Store} {chain : Chain} {tree after : FileTree} {base : Location}

theorem mem_chainWrites {write : FileWrite} :
    write ∈ chainWrites chain ↔ ∃ chunk ∈ compile chain,
      (∃ file ∈ chunk.scripts, write = .script file) ∨
        write = .document chunk.fileName chunk.documentSteps := by
  simp [chainWrites, Chunk.writes, eq_comm]

theorem fileNameOf_ne_scriptsFolder (id : UInt64) (machine : String) (number : UInt32) :
    Chunk.fileNameOf id machine number ≠ scriptsFolder := by
  intro h
  have lists := congrArg String.toList h
  rw [Chunk.toList_fileNameOf] at lists
  have heads := congrArg List.head? lists
  cases heads

def documentLocation (base : Location) (id : UInt64) (machine : String) (number : UInt32) : Location :=
  chainsLocation base ++ [FileName.ofString (Chunk.fileNameOf id machine number)]

def scriptLocation (base : Location) (name : String) : Location :=
  scriptsLocation base ++ [FileName.ofString name]

theorem documentLocation_not_mem_folders (base : Location) (id : UInt64) (machine : String)
    (number : UInt32) : documentLocation base id machine number ∉ folders base := by
  have name : FileName.ofString (Chunk.fileNameOf id machine number) ≠ FileName.ofString scriptsFolder :=
    fun same => fileNameOf_ne_scriptsFolder _ _ _ (FileName.ofString_injective same)
  simp [folders, documentLocation, scriptsLocation, name]

theorem scriptLocation_not_mem_folders (base : Location) (name : String) :
    scriptLocation base name ∉ folders base := by
  simp [folders, scriptLocation, scriptsLocation]

/-- Every write of a chain is that of a document or of a script of the chain on its machine. -/
theorem mem_chainWrites_cases {write : FileWrite} (mem : write ∈ chainWrites chain) :
    (∃ number steps,
      write = .document (Chunk.fileNameOf chain.id chain.target.machine number) steps) ∨
    ∃ number action contents,
      write = .script ⟨ScriptFile.nameOf chain.id chain.target.machine number action, contents⟩ := by
  obtain ⟨chunk, of_chain, ⟨file, written, rfl⟩ | rfl⟩ := mem_chainWrites.mp mem
  · rw [chunk.scripts_eq] at written
    obtain ⟨script, -, rfl⟩ := List.mem_map.mp written
    obtain ⟨segment, placed⟩ := exists_placedFrom of_chain
    refine .inr ⟨chunk.number, script.action, script.contents, ?_⟩
    rw [Chunk.fileOf, Chunk.scriptName, placed.chain_eq, placed.machine_eq]
  · refine .inl ⟨chunk.number, chunk.documentSteps, ?_⟩
    rw [Chunk.fileName_eq of_chain]

/-- No file of a chain takes the place of a directory. -/
theorem location_not_mem_folders {write : FileWrite} (mem : write ∈ chainWrites chain)
    (base : Location) : write.location base ∉ folders base := by
  rcases mem_chainWrites_cases mem with ⟨number, steps, rfl⟩ | ⟨number, action, contents, rfl⟩
  · exact documentLocation_not_mem_folders base chain.id chain.target.machine number
  · exact scriptLocation_not_mem_folders base _

theorem apart_chainWrites (base : Location) (chain : Chain) : Apart base (chainWrites chain) := by
  intro write mem other _ taken
  exact location_not_mem_folders mem base (other.directories_subset base taken)

theorem wroteAll_of_createChainFiles (at_root : tree.DirectoryAt store.root base)
    {paths : List FilePath} (h : store.createChainFiles chain tree = (after, .ok paths)) :
    paths = (chainWrites chain).filterMap (fun write => FileWrite.documentPath? (write, write.path store)) ∧
      store.WroteAll base (chainWrites chain) tree after := by
  unfold createChainFiles runChain at h
  rcases ran : store.performAll (chainWrites chain) tree with ⟨last, run⟩
  rw [ran] at h
  obtain ⟨rfl, result⟩ := Prod.mk.inj h
  unfold WriteRun.result at result
  cases failure : run.failure with
  | some failed =>
    rw [failure] at result
    cases result
  | none =>
    rw [failure] at result
    obtain ⟨done, wrote⟩ := wroteAll_of_performAll at_root (apart_chainWrites base chain) ran failure
    refine ⟨?_, wrote⟩
    rw [← Except.ok.inj result, done, List.filterMap_map]
    rfl

/-- The paths of the documents written are those of the chunks, in order. -/
theorem documentPaths_eq_map (store : Store) (chain : Chain) :
    (chainWrites chain).filterMap (fun write => FileWrite.documentPath? (write, write.path store)) =
      (compile chain).map fun chunk => store.documentPath chunk.chain chunk.machine chunk.number := by
  have one (chunk : Chunk) :
      chunk.writes.filterMap (fun write => FileWrite.documentPath? (write, write.path store)) =
        [store.documentPath chunk.chain chunk.machine chunk.number] := by
    rw [Chunk.writes, List.filterMap_append, List.filterMap_map]
    have none_of_scripts : chunk.scripts.filterMap
        ((fun write => FileWrite.documentPath? (write, write.path store)) ∘ .script) = [] :=
      List.filterMap_eq_nil_iff.mpr fun _ _ => rfl
    rw [none_of_scripts]
    rfl
  rw [chainWrites, List.filterMap_flatMap]
  simp only [one]
  exact List.map_eq_flatMap.symm

theorem documentPaths_chainWrites (store : Store) (bound : chain.splits + 2 ≤ UInt32.size) :
    (chainWrites chain).filterMap (fun write => FileWrite.documentPath? (write, write.path store)) =
      (List.range' 1 (compile chain).length).map fun n =>
        store.documentPath chain.id chain.target.machine (UInt32.ofNat n) := by
  rw [documentPaths_eq_map, length_compile, ← numbers_compile bound, List.map_map]
  refine List.map_congr_left fun chunk mem => ?_
  obtain ⟨segment, placed⟩ := exists_placedFrom mem
  rw [Function.comp_apply, UInt32.ofNat_toNat, placed.chain_eq, placed.machine_eq]

theorem documentLocation_inj {base : Location} {id id' : UInt64} {machine machine' : String}
    {number number' : UInt32}
    (h : documentLocation base id machine number = documentLocation base id' machine' number') :
    id = id' ∧ machine = machine' ∧ number = number' := by
  rw [documentLocation, documentLocation] at h
  exact Chunk.fileNameOf_inj (FileName.eq_of_append_ofString h)

theorem scriptLocation_inj {base : Location} {name name' : String}
    (h : scriptLocation base name = scriptLocation base name') : name = name' := by
  rw [scriptLocation, scriptLocation] at h
  exact FileName.eq_of_append_ofString h

theorem documentLocation_ne_scriptLocation (base : Location) (id : UInt64) (machine : String)
    (number : UInt32) (name : String) :
    documentLocation base id machine number ≠ scriptLocation base name := by
  intro same
  have lengths := congrArg List.length same
  simp [documentLocation, scriptLocation, scriptsLocation] at lengths

theorem location_document {chunk : Chunk} (h : chunk ∈ compile chain) (base : Location) :
    (FileWrite.document chunk.fileName chunk.documentSteps).location base =
      documentLocation base chain.id chain.target.machine chunk.number := by
  rw [documentLocation, ← Chunk.fileName_eq h]
  rfl

/-- Only the document of a chunk with this number goes to its place. -/
theorem exists_chunk_of_location {write : FileWrite} (mem : write ∈ chainWrites chain) {base : Location}
    {number : UInt32}
    (here : write.location base = documentLocation base chain.id chain.target.machine number) :
    ∃ chunk ∈ compile chain, chunk.number = number ∧
      write = .document chunk.fileName chunk.documentSteps := by
  obtain ⟨chunk, of_chain, ⟨file, -, rfl⟩ | rfl⟩ := mem_chainWrites.mp mem
  · exact absurd here.symm (documentLocation_ne_scriptLocation _ _ _ _ _)
  · rw [location_document of_chain] at here
    exact ⟨chunk, of_chain, (documentLocation_inj here).2.2, rfl⟩

/-- No two chunks have one number. -/
theorem eq_of_number_eq (bound : chain.splits + 2 ≤ UInt32.size) {chunk other : Chunk}
    (h : chunk ∈ compile chain) (h' : other ∈ compile chain) (same : other.number = chunk.number) :
    other = chunk := by
  obtain ⟨i, at_i⟩ := List.mem_iff_getElem?.mp h
  obtain ⟨j, at_j⟩ := List.mem_iff_getElem?.mp h'
  have number_i := number_compile bound at_i
  have number_j := number_compile bound at_j
  rw [same] at number_j
  obtain rfl : i = j := by omega
  exact Option.some.inj (at_j.symm.trans at_i)

/-- Chunks that come later have other numbers. -/
theorem number_ne_of_later (bound : chain.splits + 2 ≤ UInt32.size) {before later : List Chunk}
    {chunk : Chunk} (split : compile chain = before ++ chunk :: later) {next : Chunk}
    (h : next ∈ later) : next.number ≠ chunk.number := by
  have nodup : ((compile chain).map fun chunk => chunk.number.toNat).Nodup :=
    numbers_compile bound ▸ List.nodup_range'
  rw [split, List.map_append, List.map_cons] at nodup
  have new := (List.nodup_cons.mp (List.nodup_append.mp nodup).2.1).1
  intro same
  exact new (same ▸ List.mem_map_of_mem h)

theorem WroteAll.find_eq {writes : List FileWrite} (wrote : store.WroteAll base writes tree after)
    (at_root : tree.DirectoryAt store.root base) {write : FileWrite} (mem : write ∈ writes) {node : Node}
    (there : after.node? (write.location base) = some node) :
    after.find (write.path store) = .ok node := by
  have at_directory := directoryAt_directory (wrote.keepsDirectories.directoryAt at_root) write
    (wrote.made write mem _ (write.parent_mem_directories base))
  exact FileTree.find_of_childLocation at_directory (plainName_of_isFileName (wrote.isFileName write mem))
    (wrote.named write mem) there

section WroteChain

variable (wrote : store.WroteAll base (chainWrites chain) tree after)

include wrote

/-- Every document is there: no write after it goes to the same file. -/
theorem WroteAll.document_at (bound : chain.splits + 2 ≤ UInt32.size) {chunk : Chunk}
    (h : chunk ∈ compile chain) :
    after.node? (documentLocation base chain.id chain.target.machine chunk.number) =
      some (.file (renderDocument chunk.documentSteps).toUTF8) := by
  obtain ⟨before, later, split⟩ := List.append_of_mem h
  have whole : chainWrites chain = (before.flatMap Chunk.writes ++ chunk.scripts.map .script) ++
      .document chunk.fileName chunk.documentSteps :: later.flatMap Chunk.writes := by
    rw [chainWrites, split]
    simp [Chunk.writes]
  have alone : ∀ other ∈ later.flatMap Chunk.writes, other.location base ≠
      (FileWrite.document chunk.fileName chunk.documentSteps).location base := by
    intro other mem same
    rw [location_document h] at same
    obtain ⟨next, next_later, written⟩ := List.mem_flatMap.mp mem
    have mem_next : next ∈ compile chain := by
      rw [split]
      exact List.mem_append_right _ (List.mem_cons_of_mem _ next_later)
    rcases List.mem_append.mp written with script | document
    · obtain ⟨file, -, rfl⟩ := List.mem_map.mp script
      exact documentLocation_ne_scriptLocation _ _ _ _ _ same.symm
    · obtain rfl := List.mem_singleton.mp document
      rw [location_document mem_next] at same
      exact number_ne_of_later bound split next_later (documentLocation_inj same).2.2
  rw [← location_document h]
  exact wrote.written _ _ _ whole alone

/-- Every script file holds the last script of its name. -/
theorem WroteAll.script_at {earlier later : List ScriptFile} {file : ScriptFile}
    (split : (compile chain).flatMap Chunk.scripts = earlier ++ file :: later)
    (last : ∀ other ∈ later, other.name ≠ file.name) :
    after.node? (scriptLocation base file.name) = some (.file file.contents.toUTF8) := by
  have of_writes : (chainWrites chain).filterMap FileWrite.script? = earlier ++ file :: later := by
    rw [← split, chainWrites, List.filterMap_flatMap]
    refine congrArg (List.flatMap · (compile chain)) (funext fun chunk => ?_)
    rw [Chunk.writes, List.filterMap_append, List.filterMap_map]
    have all_of_scripts : chunk.scripts.filterMap (FileWrite.script? ∘ .script) = chunk.scripts :=
      List.filterMap_some
    rw [all_of_scripts]
    exact List.append_nil _
  obtain ⟨front, back, whole, -, of_back⟩ := List.filterMap_eq_append_iff.mp of_writes
  obtain ⟨middle, write, rest, rfl, -, is_file, of_rest⟩ := List.filterMap_eq_cons_iff.mp of_back
  obtain rfl := FileWrite.eq_script is_file
  rw [← List.append_assoc] at whole
  refine wrote.written _ _ _ whole ?_
  intro other mem same
  cases other with
  | script next =>
    have later_mem : next ∈ later := of_rest ▸ List.mem_filterMap.mpr ⟨_, mem, rfl⟩
    have names := FileName.eq_of_append_ofString same
    exact last next later_mem names
  | document name steps =>
    have lengths := congrArg List.length same
    simp [FileWrite.location, FileWrite.parent, scriptsLocation] at lengths

end WroteChain

section FindWritten

variable (wrote : store.WroteAll base (chainWrites chain) tree after)
  (at_root : tree.DirectoryAt store.root base)

include wrote at_root

theorem WroteAll.find_document (bound : chain.splits + 2 ≤ UInt32.size) {chunk : Chunk}
    (h : chunk ∈ compile chain) :
    after.find (store.documentPath chain.id chain.target.machine chunk.number) =
      .ok (.file (renderDocument chunk.documentSteps).toUTF8) := by
  have mem : FileWrite.document chunk.fileName chunk.documentSteps ∈ chainWrites chain :=
    mem_chainWrites.mpr ⟨chunk, h, .inr rfl⟩
  have there := wrote.document_at bound h
  rw [← location_document h] at there
  rw [documentPath, ← Chunk.fileName_eq h]
  exact wrote.find_eq at_root mem there

theorem WroteAll.find_script {earlier later : List ScriptFile} {file : ScriptFile}
    (split : (compile chain).flatMap Chunk.scripts = earlier ++ file :: later)
    (last : ∀ other ∈ later, other.name ≠ file.name) :
    after.find (store.scriptsDirectory / file.name) = .ok (.file file.contents.toUTF8) := by
  have here : file ∈ (compile chain).flatMap Chunk.scripts := by
    rw [split]
    exact List.mem_append_right _ List.mem_cons_self
  obtain ⟨chunk, mem_chunk, mem_file⟩ := List.mem_flatMap.mp here
  have mem : FileWrite.script file ∈ chainWrites chain :=
    mem_chainWrites.mpr ⟨chunk, mem_chunk, .inl ⟨file, mem_file, rfl⟩⟩
  exact wrote.find_eq at_root mem (wrote.script_at split last)

end FindWritten

end Store

end ChunkedChain
