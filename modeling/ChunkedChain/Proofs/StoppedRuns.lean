import ChunkedChain.Proofs.Removal
import ChunkedChain.Proofs.ScriptSources

/-!
# Runs that stop

The first write that fails stops the run. Since a chunk's document comes after its scripts, and chunks come
in order, the chunks before the one that failed are complete, its own document is as it was, and no file of
a later chunk has been touched. So every document that the run has written names scripts that are there.
-/

namespace ChunkedChain

/-- An element of a list that is put together of parts stands in one of them. -/
theorem exists_part_of_split {α β : Type} {f : α → List β} {xs : List α} {before later : List β} {y : β}
    (h : xs.flatMap f = before ++ y :: later) :
    ∃ done x rest front back, xs = done ++ x :: rest ∧ f x = front ++ y :: back ∧
      before = done.flatMap f ++ front := by
  induction xs generalizing before with
  | nil => simp at h
  | cons x xs ih =>
    rw [List.flatMap_cons] at h
    rcases List.append_eq_append_iff.mp h with ⟨more, rfl, split⟩ | ⟨more, first, split⟩
    · obtain ⟨done, part, rest, front, back, rfl, here, rfl⟩ := ih split
      exact ⟨x :: done, part, rest, front, back, rfl, here, by simp⟩
    · rcases List.cons_eq_append_iff.mp split with ⟨rfl, split⟩ | ⟨back, rfl, -⟩
      · have split : xs.flatMap f = [] ++ y :: later := split.symm
        obtain ⟨done, part, rest, front, back, rfl, here, none⟩ := ih split
        rw [List.append_nil] at first
        exact ⟨x :: done, part, rest, front, back, rfl, here, by simp [first, ← none]⟩
      · exact ⟨[], x, xs, before, back, rfl, first, rfl⟩

namespace FileTree

/-- What a path leads to is still found when directories have been made. -/
theorem MadeAmong.find_eq {tree made : FileTree} {locations : List Location}
    (among : tree.MadeAmong made locations) {path : FilePath} {node : Node}
    (found : tree.find path = .ok node) : made.find path = .ok node := by
  cases located : tree.locate path with
  | error e =>
    rw [find_of_error located] at found
    cases found
  | ok location =>
    rw [find_of_locate located] at found
    rw [find_of_locate (among.keepsDirectories.locate_eq located)]
    rcases among.node?_cases location with same | ⟨-, missing, -⟩
    · rw [same]
      exact found
    · rw [missing] at found
      cases found

end FileTree

namespace Chunk

variable {chain : Chain} {chunk next : Chunk}

theorem mem_writes {write : FileWrite} :
    write ∈ chunk.writes ↔ (∃ file ∈ chunk.scripts, write = .script file) ∨
      write = .document chunk.fileName chunk.documentSteps := by
  simp [writes, eq_comm]

theorem mem_scripts {file : ScriptFile} (h : file ∈ chunk.scripts) :
    ∃ script ∈ chunk.stepScripts, file = chunk.fileOf script := by
  rw [chunk.scripts_eq] at h
  obtain ⟨script, mem, eq⟩ := List.mem_map.mp h
  exact ⟨script, mem, eq.symm⟩

/-- The files of different chunks are different ones. -/
theorem location_ne_of_number_ne (h : chunk ∈ compile chain) (h' : next ∈ compile chain)
    (apart : chunk.number ≠ next.number) {write other : FileWrite} (mem : write ∈ chunk.writes)
    (mem' : other ∈ next.writes) (base : Location) : write.location base ≠ other.location base := by
  intro same
  rcases mem_writes.mp mem with ⟨file, written, rfl⟩ | rfl
  · rcases mem_writes.mp mem' with ⟨file', written', rfl⟩ | rfl
    · obtain ⟨script, -, rfl⟩ := mem_scripts written
      obtain ⟨script', -, rfl⟩ := mem_scripts written'
      have names : chunk.scriptName script.action = next.scriptName script'.action :=
        Store.scriptLocation_inj same
      exact apart (scriptName_inj names).1
    · rw [Store.location_document h'] at same
      exact Store.documentLocation_ne_scriptLocation _ _ _ _ _ same.symm
  · rw [Store.location_document h] at same
    rcases mem_writes.mp mem' with ⟨file', -, rfl⟩ | rfl
    · exact Store.documentLocation_ne_scriptLocation _ _ _ _ _ same
    · rw [Store.location_document h'] at same
      exact apart (Store.documentLocation_inj same).2.2

/-- The numbers grow along a chain. -/
theorem number_lt_of_split (bound : chain.splits + 2 ≤ UInt32.size) {before later : List Chunk}
    (split : compile chain = before ++ chunk :: later) :
    (∀ other ∈ before, other.number < chunk.number) ∧ ∀ other ∈ later, chunk.number < other.number := by
  have sorted : ((compile chain).map fun chunk => chunk.number.toNat).Pairwise (· < ·) :=
    numbers_compile bound ▸ List.pairwise_lt_range'
  rw [split, List.pairwise_map, List.pairwise_append, List.pairwise_cons] at sorted
  obtain ⟨-, ⟨after, -⟩, ordered⟩ := sorted
  exact ⟨fun other mem => ordered other mem chunk List.mem_cons_self, after⟩

/-- The chunks before one are those with smaller numbers. -/
theorem mem_before_of_number_lt (bound : chain.splits + 2 ≤ UInt32.size) {before later : List Chunk}
    (split : compile chain = before ++ chunk :: later) (h : next ∈ compile chain)
    (smaller : next.number < chunk.number) : next ∈ before := by
  rw [split, List.mem_append, List.mem_cons] at h
  rcases h with mem | rfl | mem
  · exact mem
  · exact absurd smaller (UInt32.lt_irrefl _)
  · exact absurd smaller (UInt32.lt_asymm ((number_lt_of_split bound split).2 next mem))

/-- Every write of a chunk but the last is that of a script. -/
theorem exists_script_of_split {front back : List FileWrite} {write other : FileWrite}
    (split : chunk.writes = front ++ write :: back) (mem : other ∈ front) :
    ∃ file ∈ chunk.scripts, other = .script file := by
  have scripts : chunk.scripts.map FileWrite.script = front ++ (write :: back).dropLast := by
    rw [← List.dropLast_append_of_ne_nil (List.cons_ne_nil _ _), ← split, writes, List.dropLast_concat]
  have mem : other ∈ chunk.scripts.map FileWrite.script := scripts ▸ List.mem_append_left _ mem
  obtain ⟨file, mem, eq⟩ := List.mem_map.mp mem
  exact ⟨file, mem, eq.symm⟩

end Chunk

namespace Store

variable {store : Store} {chain : Chain} {tree after : FileTree} {base : Location}

theorem mem_chainWrites_of_mem {chunk : Chunk} (h : chunk ∈ compile chain) {write : FileWrite}
    (mem : write ∈ chunk.writes) : write ∈ chainWrites chain :=
  List.mem_flatMap.mpr ⟨chunk, h, mem⟩

/-- A run with a failure has done the writes before the one that failed. -/
theorem stopped_of_performAll (at_root : tree.DirectoryAt store.root base) {writes : List FileWrite}
    (apart : Apart base writes) {run : WriteRun} (h : store.performAll writes tree = (after, run))
    {failed : FileWrite} {e : StoreError} (failure : run.failure = some (failed, e)) :
    ∃ before later middle, writes = before ++ failed :: later ∧
      store.WroteAll base before tree middle ∧ store.perform failed middle = (after, .error e) := by
  induction writes generalizing tree run with
  | nil =>
    cases h
    cases failure
  | cons write rest ih =>
    rw [performAll] at h
    split at h
    · rename_i next e' performed
      cases h
      obtain ⟨rfl, rfl⟩ := Prod.mk.inj (Option.some.inj failure)
      exact ⟨[], rest, tree, rfl, .nil store base tree, performed⟩
    · rename_i next path performed
      obtain ⟨rfl, wrote⟩ := wrote_of_perform at_root performed
      rcases performed_rest : store.performAll rest next with ⟨last, later⟩
      rw [performed_rest] at h
      obtain ⟨rfl, rfl⟩ := Prod.mk.inj h
      obtain ⟨before, others, middle, rfl, done, refused⟩ :=
        ih (wrote.keepsDirectories.directoryAt at_root) apart.tail performed_rest failure
      refine ⟨write :: before, others, middle, rfl, .cons ?_ wrote done, refused⟩
      intro first mem second mem'
      exact apart first (List.mem_append_left _ mem) second (List.mem_append_left _ mem')

/-- The document of a chunk and all its scripts hold what a run without a failure puts there. Of scripts of
one name the last one is kept. -/
structure ChunkWritten (store : Store) (chunk : Chunk) (after : FileTree) : Prop where
  document : after.find (store.chainsDirectory / chunk.fileName) =
    .ok (.file (renderDocument chunk.documentSteps).toUTF8)
  scripts : ∀ earlier file later, chunk.scripts = earlier ++ file :: later →
    (∀ other ∈ later, other.name ≠ file.name) →
    after.find (store.scriptsDirectory / file.name) = .ok (.file file.contents.toUTF8)

/-- What writes leave of a chunk that is among them, if none of the later ones goes to its files. -/
theorem WroteAll.chunkWritten (at_root : tree.DirectoryAt store.root base)
    {before later : List FileWrite} {chunk : Chunk}
    (wrote : store.WroteAll base (before ++ chunk.writes ++ later) tree after)
    (apart : ∀ write ∈ chunk.writes, ∀ other ∈ later, other.location base ≠ write.location base) :
    store.ChunkWritten chunk after where
  document := by
    have mem : FileWrite.document chunk.fileName chunk.documentSteps ∈ chunk.writes :=
      Chunk.mem_writes.mpr (.inr rfl)
    have mem_all : FileWrite.document chunk.fileName chunk.documentSteps ∈
        before ++ chunk.writes ++ later :=
      List.mem_append_left _ (List.mem_append_right _ mem)
    have split : before ++ chunk.writes ++ later = (before ++ chunk.scripts.map .script) ++
        .document chunk.fileName chunk.documentSteps :: later := by simp [Chunk.writes]
    exact wrote.find_eq at_root mem_all (wrote.written _ _ _ split (apart _ mem))
  scripts := by
    intro earlier file rest scripts last
    have mem : FileWrite.script file ∈ chunk.writes :=
      Chunk.mem_writes.mpr (.inl ⟨file, scripts ▸ List.mem_append_right _ List.mem_cons_self, rfl⟩)
    have mem_all : FileWrite.script file ∈ before ++ chunk.writes ++ later :=
      List.mem_append_left _ (List.mem_append_right _ mem)
    have split : before ++ chunk.writes ++ later = (before ++ earlier.map .script) ++ .script file ::
        (rest.map .script ++ .document chunk.fileName chunk.documentSteps :: later) := by
      simp [Chunk.writes, scripts]
    have there := wrote.written _ _ _ split ?_
    · exact wrote.find_eq at_root mem_all there
    · intro other mem_other same
      rcases List.mem_append.mp mem_other with mem_other | mem_other
      · obtain ⟨next, mem_next, rfl⟩ := List.mem_map.mp mem_other
        exact last next mem_next (FileName.eq_of_append_ofString same)
      rcases List.mem_cons.mp mem_other with rfl | mem_other
      · have lengths := congrArg List.length same
        simp [FileWrite.location, FileWrite.parent, scriptsLocation] at lengths
      · exact apart _ mem other mem_other same

theorem ChunkWritten.of_madeAmong {middle : FileTree} {chunk : Chunk} {locations : List Location}
    (written : store.ChunkWritten chunk middle) (among : middle.MadeAmong after locations) :
    store.ChunkWritten chunk after where
  document := among.find_eq written.document
  scripts earlier file later scripts last :=
    among.find_eq (written.scripts earlier file later scripts last)

/-- Every script step of a chunk that is complete finds a file at its address. -/
theorem ChunkWritten.exists_source {chunk : Chunk} (written : store.ChunkWritten chunk after)
    (h : chunk ∈ compile chain) {script : Script} (mem : script ∈ chunk.stepScripts) :
    ∃ path content, script.source = some ("salt://" ++ path) ∧
      after.find (store.root / path) = .ok (.file content) := by
  have own : chunk.fileOf script ∈
      chunk.scripts.filter fun file => file.name = (chunk.fileOf script).name := by
    rw [List.mem_filter, chunk.scripts_eq]
    exact ⟨List.mem_map_of_mem mem, decide_eq_true rfl⟩
  obtain ⟨file, last⟩ : ∃ file,
      (chunk.scripts.filter fun file => file.name = (chunk.fileOf script).name).getLast? = some file :=
    ⟨_, List.getLast?_eq_some_getLast (List.ne_nil_of_mem own)⟩
  obtain ⟨earlier, later, scripts, named, alone⟩ := split_of_getLast?_filter last
  have named : file.name = chunk.scriptName script.action := of_decide_eq_true named
  have found := written.scripts earlier file later scripts fun other mem_other same =>
    of_decide_eq_false (alone other mem_other) (same.trans named)
  rw [named] at found
  have relative : (chunk.scriptName script.action).toList.head? ≠ some '/' := by
    rw [Chunk.head?_scriptName]
    decide
  refine ⟨chainsFolder ++ "/" ++ scriptsFolder ++ "/" ++ chunk.scriptName script.action,
    file.contents.toUTF8, ?_, ?_⟩
  · rw [Chunk.source_of_mem h mem, ScriptFile.source]
    simp only [String.append_assoc]
  · rw [store.scriptsDirectory_join relative]
    exact found

/-- Where a run changes something that stops in the chunk with this number. -/
inductive TouchesUpTo (chain : Chain) (base : Location) (number : UInt32) : Location → Prop where
  | chains : TouchesUpTo chain base number (chainsLocation base)
  | scripts : TouchesUpTo chain base number (scriptsLocation base)
  | document {chunk : Chunk} : chunk ∈ compile chain → chunk.number < number →
      TouchesUpTo chain base number
        (documentLocation base chain.id chain.target.machine chunk.number)
  | script {chunk : Chunk} {file : ScriptFile} : chunk ∈ compile chain → chunk.number ≤ number →
      file ∈ chunk.scripts → TouchesUpTo chain base number (scriptLocation base file.name)

/-- The tree `after` is what a run has made of the tree that stopped in the chunk with this number. -/
structure StoppedAt (store : Store) (chain : Chain) (base : Location) (number : UInt32)
    (tree after : FileTree) : Prop where
  reached : ∃ chunk ∈ compile chain, chunk.number = number
  written : ∀ chunk ∈ compile chain, chunk.number < number → store.ChunkWritten chunk after
  document_kept : after.node? (documentLocation base chain.id chain.target.machine number) =
    tree.node? (documentLocation base chain.id chain.target.machine number)
  kept : ∀ location, ¬ TouchesUpTo chain base number location →
    after.node? location = tree.node? location
  workingDirectory : after.workingDirectory = tree.workingDirectory
  /-- Every script step of a document that has been written finds a file at its address. -/
  sources : ∀ chunk ∈ compile chain, chunk.number < number → ∀ script ∈ chunk.stepScripts,
    ∃ path content, script.source = some ("salt://" ++ path) ∧
      after.find (store.root / path) = .ok (.file content)
  untouched : ∀ chunk ∈ compile chain, number < chunk.number → ∀ write ∈ chunk.writes,
    after.node? (write.location base) = tree.node? (write.location base)

theorem failure_of_createChainFiles {e : StoreError}
    (h : store.createChainFiles chain tree = (after, .error e)) :
    ∃ run failed, store.performAll (chainWrites chain) tree = (after, run) ∧
      run.failure = some (failed, e) := by
  unfold createChainFiles runChain at h
  rcases ran : store.performAll (chainWrites chain) tree with ⟨last, run⟩
  rw [ran] at h
  obtain ⟨rfl, result⟩ := Prod.mk.inj h
  unfold WriteRun.result at result
  split at result
  · rename_i failed e' failure
    obtain rfl := Except.error.inj result
    exact ⟨run, failed, rfl, failure⟩
  · cases result

section Stopped

variable {done rest : List Chunk} {chunk : Chunk} {front back : List FileWrite} {write : FileWrite}
  {middle : FileTree} (chunks : compile chain = done ++ chunk :: rest)
  (here : chunk.writes = front ++ write :: back)
  (wrote : store.WroteAll base (done.flatMap Chunk.writes ++ front) tree middle)
  (among : middle.MadeAmong after (write.directories base))

include wrote among

/-- A run that stopped has changed nothing but directories and the files it wrote. -/
theorem node?_of_stopped {location : Location} (not_folder : location ∉ folders base)
    (before : ∀ next ∈ done, ∀ other ∈ next.writes, location ≠ other.location base)
    (inside : ∀ other ∈ front, location ≠ other.location base) :
    after.node? location = tree.node? location := by
  rw [among.kept location fun mem => not_folder (write.directories_subset base mem)]
  refine wrote.kept location ?_ ?_
  · intro other _ mem
    exact not_folder (other.directories_subset base mem)
  · intro other mem
    rcases List.mem_append.mp mem with mem | mem
    · obtain ⟨next, mem_next, mem⟩ := List.mem_flatMap.mp mem
      exact before next mem_next other mem
    · exact inside other mem

include chunks here

theorem chunkWritten_of_stopped (at_root : tree.DirectoryAt store.root base)
    (bound : chain.splits + 2 ≤ UInt32.size) {next : Chunk} (mem : next ∈ done) :
    store.ChunkWritten next after := by
  obtain ⟨earlier, later, rfl⟩ := List.append_of_mem mem
  have split : (earlier ++ next :: later).flatMap Chunk.writes ++ front =
      earlier.flatMap Chunk.writes ++ next.writes ++ (later.flatMap Chunk.writes ++ front) := by simp
  rw [split] at wrote
  have chunks : compile chain = earlier ++ next :: (later ++ chunk :: rest) := by simp [chunks]
  have next_mem : next ∈ compile chain := chunks ▸ List.mem_append_right _ List.mem_cons_self
  refine (wrote.chunkWritten at_root ?_).of_madeAmong among
  intro own mem_own other mem_other
  have different {c : Chunk} (c_mem : c ∈ later ++ chunk :: rest) (written : other ∈ c.writes) :
      other.location base ≠ own.location base := by
    have larger := (Chunk.number_lt_of_split bound chunks).2 c c_mem
    exact Chunk.location_ne_of_number_ne
      (chunks ▸ List.mem_append_right _ (List.mem_cons_of_mem _ c_mem)) next_mem
      (UInt32.ne_of_lt larger).symm written mem_own base
  rcases List.mem_append.mp mem_other with mem_other | mem_other
  · obtain ⟨c, c_mem, written⟩ := List.mem_flatMap.mp mem_other
    exact different (List.mem_append_left _ c_mem) written
  · exact different (List.mem_append_right _ List.mem_cons_self)
      (here ▸ List.mem_append_left _ mem_other)

theorem stoppedAt_of_stopped (at_root : tree.DirectoryAt store.root base)
    (bound : chain.splits + 2 ≤ UInt32.size) :
    store.StoppedAt chain base chunk.number tree after := by
  have chunk_mem : chunk ∈ compile chain := chunks ▸ List.mem_append_right _ List.mem_cons_self
  have done_mem {next : Chunk} (mem : next ∈ done) : next ∈ compile chain :=
    chunks ▸ List.mem_append_left _ mem
  have smaller {next : Chunk} (mem : next ∈ done) : next.number < chunk.number :=
    (Chunk.number_lt_of_split bound chunks).1 next mem
  have inside {other : FileWrite} (mem : other ∈ front) : other ∈ chunk.writes :=
    here ▸ List.mem_append_left _ mem
  have written {next : Chunk} (h : next ∈ compile chain) (less : next.number < chunk.number) :
      store.ChunkWritten next after :=
    chunkWritten_of_stopped chunks here wrote among at_root bound
      (Chunk.mem_before_of_number_lt bound chunks h less)
  have document : FileWrite.document chunk.fileName chunk.documentSteps ∈ chunk.writes :=
    Chunk.mem_writes.mpr (.inr rfl)
  refine ⟨⟨chunk, chunk_mem, rfl⟩, fun next h less => written h less, ?_, ?_, ?_,
    fun next h less script mem => (written h less).exists_source h mem, ?_⟩
  · -- Only scripts come before the document of a chunk.
    rw [← location_document chunk_mem base]
    have not_folder := location_not_mem_folders (mem_chainWrites_of_mem chunk_mem document) base
    refine node?_of_stopped wrote among not_folder ?_ ?_
    · intro next mem other mem_other
      exact Chunk.location_ne_of_number_ne chunk_mem (done_mem mem) (UInt32.ne_of_lt (smaller mem)).symm
        document mem_other base
    · intro other mem
      obtain ⟨file, -, rfl⟩ := Chunk.exists_script_of_split here mem
      rw [location_document chunk_mem]
      exact documentLocation_ne_scriptLocation _ _ _ _ _
  · intro location apart
    refine node?_of_stopped wrote among ?_ ?_ ?_
    · intro mem
      rcases List.mem_cons.mp mem with rfl | mem
      · exact apart .chains
      · obtain rfl := List.mem_singleton.mp mem
        exact apart .scripts
    · rintro next mem other mem_other rfl
      rcases Chunk.mem_writes.mp mem_other with ⟨file, mem_file, rfl⟩ | rfl
      · exact apart (.script (done_mem mem) (UInt32.le_of_lt (smaller mem)) mem_file)
      · rw [location_document (done_mem mem)] at apart
        exact apart (.document (done_mem mem) (smaller mem))
    · rintro other mem rfl
      obtain ⟨file, mem_file, rfl⟩ := Chunk.exists_script_of_split here mem
      exact apart (.script chunk_mem (UInt32.le_refl _) mem_file)
  · exact among.workingDirectory.trans wrote.keepsDirectories.workingDirectory
  · intro next h larger own mem_own
    have not_folder := location_not_mem_folders (mem_chainWrites_of_mem h mem_own) base
    refine node?_of_stopped wrote among not_folder ?_ ?_
    · intro c mem other mem_other
      exact Chunk.location_ne_of_number_ne h (done_mem mem)
        (UInt32.ne_of_lt (UInt32.lt_trans (smaller mem) larger)).symm mem_own mem_other base
    · intro other mem
      exact Chunk.location_ne_of_number_ne h chunk_mem (UInt32.ne_of_lt larger).symm mem_own
        (inside mem) base

end Stopped

/-- If the files of a chain cannot all be written, the run stops inside one chunk: those before it are
complete, its own document is as it was, and no file of a later one is touched. -/
theorem createChainFiles_stops_in_order (store : Store) (chain : Chain)
    (bound : chain.splits ≤ UInt32.size - 2) {tree after : FileTree} {base : Location}
    (located : tree.locate store.root = .ok base) (directory : tree.node? base = some .directory)
    {e : StoreError} (failed : store.createChainFiles chain tree = (after, .error e)) :
    ∃ number, store.StoppedAt chain base number tree after := by
  have bound := chain.splits_add_two_le bound
  have at_root := FileTree.directoryAt_of_locate located directory
  obtain ⟨run, write, ran, failure⟩ := failure_of_createChainFiles failed
  obtain ⟨before, later, middle, split, wrote, refused⟩ :=
    stopped_of_performAll at_root (apart_chainWrites base chain) ran failure
  have among := madeAmong_of_perform_error (wrote.keepsDirectories.directoryAt at_root) refused
  obtain ⟨done, chunk, rest, front, back, chunks, here, rfl⟩ := exists_part_of_split split
  exact ⟨chunk.number, stoppedAt_of_stopped chunks here wrote among at_root bound⟩

/-- A tree in which a directory stands in the place of the second document. -/
def blockedSecond : FileTree :=
  let salt := [FileName.ofString "salt"]
  ((FileTree.empty.putAt salt .directory).putAt (chainsLocation salt) .directory).putAt
    (documentLocation salt 7 "m1" 2) .directory

theorem createChainFiles_stops_twoChunks :
    twoChunks.splits ≤ UInt32.size - 2 ∧
    blockedSecond.locate ⟨"salt"⟩ = .ok [FileName.ofString "salt"] ∧
    blockedSecond.node? [FileName.ofString "salt"] = some .directory ∧
    ∃ after, ∃ e, createChainFiles ⟨⟨"salt"⟩⟩ twoChunks blockedSecond = (after, .error e) ∧
      ∃ number, StoppedAt ⟨⟨"salt"⟩⟩ twoChunks [FileName.ofString "salt"] number blockedSecond after := by
  have bound : twoChunks.splits ≤ UInt32.size - 2 := by
    have one : twoChunks.splits = 1 := by decide +kernel
    rw [one]
    decide
  have located : blockedSecond.locate ⟨"salt"⟩ = .ok [FileName.ofString "salt"] :=
    eq_ok_of_toOption (by decide +kernel)
  have directory : blockedSecond.node? [FileName.ofString "salt"] = some .directory := by
    decide +kernel
  have refused : (createChainFiles ⟨⟨"salt"⟩⟩ twoChunks blockedSecond).2 =
      .error (.write ⟨"salt/actionchains/actionchain_7_m1_2.sls"⟩ .isDirectory) := by
    decide +kernel
  obtain ⟨after, failed⟩ : ∃ after, createChainFiles ⟨⟨"salt"⟩⟩ twoChunks blockedSecond =
      (after, .error (.write ⟨"salt/actionchains/actionchain_7_m1_2.sls"⟩ .isDirectory)) :=
    ⟨_, eq_mk_of_snd refused⟩
  exact ⟨bound, located, directory, after, _, failed,
    createChainFiles_stops_in_order ⟨⟨"salt"⟩⟩ twoChunks bound located directory failed⟩

end Store

end ChunkedChain
