import ChunkedChain.Proofs.ChainWrites
import ChunkedChain.Proofs.DocumentOrder

/-!
# The files of a chain

When the files of a chain have been written, every document is there, every script file holds what the
last script of its name says, and nothing else has changed. Each document but the last asks for the next
one, so a node that starts with the first one is never led to a document that an earlier compilation left.
-/

namespace ChunkedChain

namespace Document

/-- The number of the chunk that a document asks for, if it asks for one. -/
def asked? (document : Entries Value) : Option Int :=
  match (Entries.get? Chunk.nextId document).bind (Value.field? "module.run") with
  | some (.list arguments) => arguments.findSome? fun argument =>
    match argument.field? "chunk" with
    | some (.int number) => some number
    | _ => none
  | _ => none

end Document

namespace Chunk

variable {chain : Chain} {chunk : Chunk}

/-- The entry of a document under the name of the continuation is the continuation. -/
theorem get?_nextId (h : chunk ∈ compile chain) :
    Entries.get? nextId (Document.entries chunk.documentSteps) =
      chunk.continuation.map State.body := by
  obtain ⟨segment, placed⟩ := exists_placedFrom h
  cases continuation : chunk.continuation with
  | none =>
    rw [← Document.entries_filterMap]
    refine Entries.get?_eq_none fun mem => ?_
    rw [Document.mem_keys_entries, filterMap_documentSteps, continuation, Option.toList_none,
      List.append_nil] at mem
    obtain ⟨s, state, id⟩ := List.mem_map.mp mem
    obtain ⟨step, -, compiled⟩ :=
      forall₂_exists_of_mem placed.compiled.flip (mem_filterMap_state?.mp state)
    cases compiled with
    | state suffixed => exact StateId.append_chunkSuffix_ne_nextId _ _ (suffixed.symm.trans id)
  | some c =>
    have steps : chunk.documentSteps = chunk.steps ++ [.state c] := by
      rw [documentSteps, continuation]
      rfl
    rw [steps, Document.entries_append_state, ← placed.next c continuation, Entries.get?_insert_self]
    rfl

/-- What the document of a chunk asks for. -/
theorem asks_compile (bound : chain.splits + 2 ≤ UInt32.size) {i : Nat}
    (h : (compile chain)[i]? = some chunk) :
    if i + 1 < (compile chain).length then
      ∃ requisites, Entries.get? nextId (Document.entries chunk.documentSteps) = some (State.body
        { id := "schedule_next_chunk"
          task := .run "mgractionchains.next"
            [("actionchain_id", .int chain.id.toNat), ("chunk", .int (i + 2 : Nat))] none
          requisites })
    else Entries.get? nextId (Document.entries chunk.documentSteps) = none := by
  have number := number_compile bound h
  have continuation := continuation_compile bound h
  rw [get?_nextId (List.mem_of_getElem? h), length_compile]
  by_cases more : i < chain.splits
  · rw [if_pos more] at continuation
    obtain ⟨requisites, continuation⟩ := continuation
    rw [if_pos (by omega), continuation, number]
    exact ⟨requisites, rfl⟩
  · rw [if_neg more] at continuation
    rw [if_neg (by omega), continuation]
    rfl

theorem asked?_compile (bound : chain.splits + 2 ≤ UInt32.size) {i : Nat}
    (h : (compile chain)[i]? = some chunk) :
    Document.asked? (Document.entries chunk.documentSteps) =
      if i + 1 < (compile chain).length then some ((i + 2 : Nat) : Int) else none := by
  have asks := asks_compile bound h
  unfold Document.asked?
  split at asks
  · obtain ⟨requisites, asks⟩ := asks
    rw [asks, if_pos ‹_›]
    rfl
  · rw [asks, if_neg ‹_›]
    rfl

end Chunk

namespace Store

variable {store : Store} {chain : Chain} {tree after : FileTree} {base : Location}

/-- Where the files of a chain are written, and the directories that are made for them. -/
inductive Touches (chain : Chain) (base : Location) : Location → Prop where
  | chains : Touches chain base (chainsLocation base)
  | scripts {step : Step} {script : Script} : step ∈ chain.steps → step.script? = some script →
      Touches chain base (scriptsLocation base)
  | document {chunk : Chunk} : chunk ∈ compile chain →
      Touches chain base (documentLocation base chain.id chain.target.machine chunk.number)
  | script {chunk : Chunk} {file : ScriptFile} : chunk ∈ compile chain → file ∈ chunk.scripts →
      Touches chain base (scriptLocation base file.name)

/-- The numbers of the chunks that a node applies when it starts with chunk 1, finds the entries of
documents by `read`, and goes on with the chunk that each document asks for. -/
inductive Reached (store : Store) (chain : Chain) (tree : FileTree)
    (read : ByteArray → Option (Entries Value)) : UInt32 → Prop where
  | first : Reached store chain tree read 1
  | next {number later : UInt32} {content : ByteArray} {document : Entries Value} :
      Reached store chain tree read number →
      tree.find (store.documentPath chain.id chain.target.machine number) = .ok (.file content) →
      read content = some document → Document.asked? document = some (later.toNat : Int) →
      Reached store chain tree read later

/-- The tree `after` is the tree with the files of a chain written below `base`, and the documents are at
`paths`. -/
structure ChainWritten (store : Store) (chain : Chain) (base : Location) (tree after : FileTree)
    (paths : List FilePath) : Prop where
  paths_eq : paths = (List.range' 1 (compile chain).length).map fun n =>
    store.documentPath chain.id chain.target.machine (UInt32.ofNat n)
  documents : List.Forall₂ (fun chunk path =>
    after.find path = .ok (.file (renderDocument (Chunk.documentSteps chunk)).toUTF8))
    (compile chain) paths
  /-- The last script of a name is the one that is kept. -/
  scripts : ∀ earlier file later, (compile chain).flatMap Chunk.scripts = earlier ++ file :: later →
    (∀ other ∈ later, other.name ≠ file.name) →
    after.find (store.scriptsDirectory / file.name) = .ok (.file file.contents.toUTF8)
  chainsDirectory : after.node? (chainsLocation base) = some .directory
  scriptsDirectory : (∃ step ∈ chain.steps, ∃ script, step.script? = some script) →
    after.node? (scriptsLocation base) = some .directory
  kept : ∀ location, ¬ Touches chain base location → after.node? location = tree.node? location
  workingDirectory : after.workingDirectory = tree.workingDirectory
  /-- Documents with greater numbers are left as they were. -/
  leftovers : ∀ number : UInt32, (compile chain).length < number.toNat →
    after.node? (documentLocation base chain.id chain.target.machine number) =
      tree.node? (documentLocation base chain.id chain.target.machine number)
  /-- Each document but the last asks for the next chunk. -/
  asks : ∀ (i : Nat) (chunk : Chunk), (compile chain)[i]? = some chunk →
    if i + 1 < (compile chain).length then
      ∃ requisites, Entries.get? "schedule_next_chunk" (Document.entries chunk.documentSteps) =
        some (State.body
          { id := "schedule_next_chunk"
            task := .run "mgractionchains.next"
              [("actionchain_id", .int chain.id.toNat), ("chunk", .int (i + 2 : Nat))] none
            requisites })
    else Entries.get? "schedule_next_chunk" (Document.entries chunk.documentSteps) = none
  /-- A node that reads these documents as they are meant reaches no other ones. -/
  reached : ∀ read : ByteArray → Option (Entries Value),
    (∀ chunk ∈ compile chain, read (renderDocument chunk.documentSteps).toUTF8 =
      some (Document.entries chunk.documentSteps)) →
    ∀ number, Reached store chain after read number →
      1 ≤ number.toNat ∧ number.toNat ≤ (compile chain).length

theorem not_touches_leftover (bound : chain.splits + 2 ≤ UInt32.size) {number : UInt32}
    (greater : (compile chain).length < number.toNat) (base : Location) :
    ¬ Touches chain base (documentLocation base chain.id chain.target.machine number) := by
  intro touches
  generalize same : documentLocation base chain.id chain.target.machine number = location at touches
  cases touches with
  | chains =>
    have lengths := congrArg List.length same
    simp [documentLocation] at lengths
  | scripts =>
    have names := FileName.eq_of_append_ofString same
    exact fileNameOf_ne_scriptsFolder _ _ _ names
  | document mem =>
    have names := FileName.eq_of_append_ofString same
    obtain ⟨i, at_i⟩ := List.mem_iff_getElem?.mp mem
    have number_i := number_compile bound at_i
    have here := (List.getElem?_eq_some_iff.mp at_i).1
    rw [← (Chunk.fileNameOf_inj names).2.2] at number_i
    omega
  | script => exact documentLocation_ne_scriptLocation _ _ _ _ _ same

section WroteChain

variable (wrote : store.WroteAll base (chainWrites chain) tree after)

include wrote

theorem WroteAll.kept_of_not_touches {location : Location} (h : ¬ Touches chain base location) :
    after.node? location = tree.node? location := by
  refine wrote.kept location ?_ ?_
  · intro write mem directory
    obtain ⟨chunk, mem_chunk, ⟨file, mem_file, rfl⟩ | rfl⟩ := mem_chainWrites.mp mem
    · rcases List.mem_cons.mp directory with rfl | directory
      · exact h .chains
      · obtain rfl := List.mem_singleton.mp directory
        obtain ⟨step, mem_step, script, of_step⟩ :=
          (exists_mem_scripts_iff chain).mp ⟨chunk, mem_chunk, file, mem_file⟩
        exact h (.scripts mem_step of_step)
    · obtain rfl := List.mem_singleton.mp directory
      exact h .chains
  · rintro write mem rfl
    obtain ⟨chunk, mem_chunk, ⟨file, mem_file, rfl⟩ | rfl⟩ := mem_chainWrites.mp mem
    · exact h (.script mem_chunk mem_file)
    · exact h (location_document mem_chunk base ▸ .document mem_chunk)

variable (at_root : tree.DirectoryAt store.root base)

include at_root

/-- No run along the continuations leaves the chunks that have been written. -/
theorem WroteAll.reached_le (bound : chain.splits + 2 ≤ UInt32.size)
    {read : ByteArray → Option (Entries Value)}
    (faithful : ∀ chunk ∈ compile chain,
      read (renderDocument chunk.documentSteps).toUTF8 = some (Document.entries chunk.documentSteps))
    {number : UInt32} (reached : store.Reached chain after read number) :
    1 ≤ number.toNat ∧ number.toNat ≤ (compile chain).length := by
  induction reached with
  | first =>
    have one : (1 : UInt32).toNat = 1 := rfl
    rw [one, length_compile]
    omega
  | @next number later content document _ found readable asks ih =>
    obtain ⟨positive, small⟩ := ih
    -- What the node finds under this number is the document that has been written for it.
    have at_i : (compile chain)[number.toNat - 1]? = some (compile chain)[number.toNat - 1] :=
      List.getElem?_eq_getElem (by omega)
    generalize (compile chain)[number.toNat - 1] = chunk at at_i
    have same : chunk.number = number := by
      have number_i := number_compile bound at_i
      exact UInt32.toNat_inj.mp (by omega)
    have mem := List.mem_of_getElem? at_i
    have written := wrote.find_document at_root bound mem
    rw [same, found] at written
    obtain rfl := Node.file.inj (Except.ok.inj written)
    rw [faithful chunk mem] at readable
    rw [← Option.some.inj readable, Chunk.asked?_compile bound at_i] at asks
    split at asks
    · have number_later := Int.ofNat.inj (Option.some.inj asks)
      omega
    · cases asks

theorem WroteAll.chainWritten (bound : chain.splits + 2 ≤ UInt32.size) {paths : List FilePath}
    (paths_eq : paths = (List.range' 1 (compile chain).length).map fun n =>
      store.documentPath chain.id chain.target.machine (UInt32.ofNat n)) :
    store.ChainWritten chain base tree after paths where
  paths_eq := paths_eq
  documents := by
    rw [paths_eq, length_compile, ← numbers_compile bound, List.map_map, List.forall₂_map_right_iff]
    refine List.forall₂_same.mpr fun chunk mem => ?_
    rw [Function.comp_apply, UInt32.ofNat_toNat]
    exact wrote.find_document at_root bound mem
  scripts := fun _ _ _ split last => wrote.find_script at_root split last
  chainsDirectory := by
    have some_chunk : 0 < (compile chain).length := by
      rw [length_compile]
      omega
    have mem := List.getElem_mem some_chunk
    generalize (compile chain)[0] = chunk at mem
    exact wrote.made _ (mem_chainWrites.mpr ⟨chunk, mem, .inr rfl⟩) _ List.mem_cons_self
  scriptsDirectory := by
    intro some_script
    obtain ⟨chunk, mem, file, mem_file⟩ := (exists_mem_scripts_iff chain).mpr some_script
    exact wrote.made _ (mem_chainWrites.mpr ⟨chunk, mem, .inl ⟨file, mem_file, rfl⟩⟩) _
      (List.mem_cons_of_mem _ List.mem_cons_self)
  kept := fun _ h => wrote.kept_of_not_touches h
  workingDirectory := wrote.keepsDirectories.workingDirectory
  leftovers := fun _ greater => wrote.kept_of_not_touches (not_touches_leftover bound greater base)
  asks := fun _ _ at_i => Chunk.asks_compile bound at_i
  reached := fun _ faithful _ reached => wrote.reached_le at_root bound faithful reached

end WroteChain

/-- Writing the files of a chain puts every document and every script in its place and changes nothing
else, and a run along the continuations never leaves the documents written. -/
theorem createChainFiles_writes_chunks (store : Store) (chain : Chain)
    (bound : chain.splits ≤ UInt32.size - 2) {tree after : FileTree} {base : Location}
    (located : tree.locate store.root = .ok base) (directory : tree.node? base = some .directory)
    {paths : List FilePath} (written : store.createChainFiles chain tree = (after, .ok paths)) :
    store.ChainWritten chain base tree after paths := by
  have bound := chain.splits_add_two_le bound
  have at_root := FileTree.directoryAt_of_locate located directory
  obtain ⟨paths_eq, wrote⟩ := wroteAll_of_createChainFiles at_root written
  rw [documentPaths_chainWrites store bound] at paths_eq
  exact wrote.chainWritten at_root bound paths_eq

/-- A chain of two chunks, with a script in the first one. -/
def twoChunks : Chain where
  id := 7
  target := ⟨"node", "m1"⟩
  steps :=
    [.state ⟨"a", .script ⟨4, "exit 0", none, none, none⟩, .empty⟩, .state ⟨"b", .reboot 3, .empty⟩,
      .state ⟨"c", .run "test.ping" [] none, .empty⟩]

/-- A tree with documents of an earlier compilation into three chunks. -/
def earlierFiles : FileTree :=
  let salt := [FileName.ofString "salt"]
  let file := Node.file "old".toUTF8
  (((FileTree.empty.putAt salt .directory).putAt (chainsLocation salt) .directory).putAt
    (documentLocation salt 7 "m1" 1) file).putAt (documentLocation salt 7 "m1" 3) file

theorem eq_ok_of_toOption {ε α : Type} {result : Except ε α} {value : α}
    (h : result.toOption = some value) : result = .ok value := by
  cases result with
  | error e => cases h
  | ok found => exact congrArg _ (Option.some.inj h)

theorem eq_mk_of_snd {α β : Type} {pair : α × β} {second : β} (h : pair.2 = second) :
    pair = (pair.1, second) := h ▸ rfl

/-- Documents that differ can be told apart by a reader. -/
theorem exists_reader {chunks : List Chunk}
    (differ : (chunks.map fun chunk => renderDocument chunk.documentSteps).Nodup) :
    ∃ read : ByteArray → Option (Entries Value), ∀ chunk ∈ chunks,
      read (renderDocument chunk.documentSteps).toUTF8 =
        some (Document.entries chunk.documentSteps) := by
  refine ⟨fun content => (chunks.find? fun chunk =>
    (renderDocument chunk.documentSteps).toUTF8 = content).map fun chunk =>
      Document.entries chunk.documentSteps, fun chunk mem => ?_⟩
  cases found : chunks.find? fun other =>
      (renderDocument other.documentSteps).toUTF8 = (renderDocument chunk.documentSteps).toUTF8 with
  | none =>
    have missed := List.find?_eq_none.mp found chunk mem
    exact absurd (decide_eq_true rfl) missed
  | some other =>
    have same := List.find?_some found
    rw [decide_eq_true_iff] at same
    obtain rfl := List.inj_on_of_nodup_map differ (List.mem_of_find?_eq_some found) mem
      (String.toByteArray_inj.mp same)
    exact congrArg (Option.map fun chunk => Document.entries chunk.documentSteps) found

theorem createChainFiles_writes_twoChunks :
    twoChunks.splits ≤ UInt32.size - 2 ∧
    earlierFiles.locate ⟨"salt"⟩ = .ok [FileName.ofString "salt"] ∧
    earlierFiles.node? [FileName.ofString "salt"] = some .directory ∧
    ∃ after, ∃ paths, createChainFiles ⟨⟨"salt"⟩⟩ twoChunks earlierFiles = (after, .ok paths) ∧
      ChainWritten ⟨⟨"salt"⟩⟩ twoChunks [FileName.ofString "salt"] earlierFiles after paths ∧
      ∃ read : ByteArray → Option (Entries Value), ∀ chunk ∈ compile twoChunks,
        read (renderDocument chunk.documentSteps).toUTF8 =
          some (Document.entries chunk.documentSteps) := by
  have bound : twoChunks.splits ≤ UInt32.size - 2 := by
    have one : twoChunks.splits = 1 := by decide +kernel
    rw [one]
    decide
  have located : earlierFiles.locate ⟨"salt"⟩ = .ok [FileName.ofString "salt"] :=
    eq_ok_of_toOption (by decide +kernel)
  have directory : earlierFiles.node? [FileName.ofString "salt"] = some .directory := by decide +kernel
  have created : (createChainFiles ⟨⟨"salt"⟩⟩ twoChunks earlierFiles).2 = .ok
      [⟨"salt/actionchains/actionchain_7_m1_1.sls"⟩, ⟨"salt/actionchains/actionchain_7_m1_2.sls"⟩] :=
    eq_ok_of_toOption (by decide +kernel)
  obtain ⟨after, written⟩ : ∃ after, createChainFiles ⟨⟨"salt"⟩⟩ twoChunks earlierFiles =
      (after, .ok
        [⟨"salt/actionchains/actionchain_7_m1_1.sls"⟩, ⟨"salt/actionchains/actionchain_7_m1_2.sls"⟩]) :=
    ⟨_, eq_mk_of_snd created⟩
  exact ⟨bound, located, directory, after, _, written,
    createChainFiles_writes_chunks ⟨⟨"salt"⟩⟩ twoChunks bound located directory written,
    exists_reader (by decide +kernel)⟩

end Store

end ChunkedChain
