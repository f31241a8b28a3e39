import ChunkedChain.Proofs.ChainWrites
import ChunkedChain.Proofs.Cleaning
import ChunkedChain.Proofs.SingleWrites

/-!
# What a run changes

Writing and cleaning up make the directories of the store, and files come, go or get another content in
them. Directories stay, so whatever was in the way of a write before such a run is in its way afterwards,
and nothing else is.
-/

namespace ChunkedChain

/-- Nothing is there but a regular file at most. -/
def Node.AtMostFile (node : Option Node) : Prop :=
  node = none ∨ ∃ content, node = some (.file content)

namespace Node

theorem AtMostFile.ne_directory {node : Option Node} (h : AtMostFile node) :
    node ≠ some .directory := by
  rcases h with rfl | ⟨content, rfl⟩ <;> simp

theorem atMostFile_of_ne {node : Option Node} (no_directory : node ≠ some .directory)
    (no_device : node ≠ some .fullDevice) : AtMostFile node := by
  rcases node with _ | _ | content | _
  · exact .inl rfl
  · exact absurd rfl no_directory
  · exact .inr ⟨content, rfl⟩
  · exact absurd rfl no_device

end Node

namespace Store

/-- The tree `after` is the tree with directories of the store made, and with some of these files put in
the place of files or of nothing, or taken away. -/
structure ChangesOnly (base : Location) (files : Location → Prop) (tree after : FileTree) : Prop where
  folders : ∀ location ∈ folders base, after.node? location = tree.node? location ∨
    tree.node? location = none ∧ after.node? location = some .directory
  others : ∀ location ∉ Store.folders base, after.node? location = tree.node? location ∨
    files location ∧ Node.AtMostFile (tree.node? location) ∧ Node.AtMostFile (after.node? location)
  workingDirectory : after.workingDirectory = tree.workingDirectory

namespace ChangesOnly

variable {base : Location} {files more : Location → Prop} {tree middle after : FileTree}

theorem refl (base : Location) (files : Location → Prop) (tree : FileTree) :
    ChangesOnly base files tree tree :=
  ⟨fun _ _ => .inl rfl, fun _ _ => .inl rfl, rfl⟩

theorem trans (first : ChangesOnly base files tree middle)
    (second : ChangesOnly base files middle after) : ChangesOnly base files tree after where
  folders := by
    intro location mem
    rcases second.folders location mem with same | ⟨missing, made⟩
    · rw [same]
      exact first.folders location mem
    · rcases first.folders location mem with same | ⟨-, there⟩
      · exact .inr ⟨same ▸ missing, made⟩
      · rw [there] at missing
        cases missing
  others := by
    intro location mem
    rcases second.others location mem with same | ⟨own, old, new⟩
    · rw [same]
      exact first.others location mem
    · rcases first.others location mem with same | ⟨-, older, -⟩
      · exact .inr ⟨own, same ▸ old, new⟩
      · exact .inr ⟨own, older, new⟩
  workingDirectory := second.workingDirectory.trans first.workingDirectory

theorem mono (changes : ChangesOnly base files tree after)
    (sub : ∀ location, files location → more location) : ChangesOnly base more tree after where
  folders := changes.folders
  others location mem := (changes.others location mem).imp_right fun ⟨own, nodes⟩ =>
    ⟨sub location own, nodes⟩
  workingDirectory := changes.workingDirectory

variable (changes : ChangesOnly base files tree after)

include changes

theorem kept {location : Location} (mem : location ∉ Store.folders base) (foreign : ¬ files location) :
    after.node? location = tree.node? location :=
  (changes.others location mem).resolve_right fun ⟨own, _⟩ => foreign own

theorem keepsDirectories : tree.KeepsDirectories after where
  directory := by
    intro location directory
    by_cases mem : location ∈ Store.folders base
    · rcases changes.folders location mem with same | ⟨missing, -⟩
      · rw [same, directory]
      · rw [directory] at missing
        cases missing
    · rcases changes.others location mem with same | ⟨-, old, -⟩
      · rw [same, directory]
      · exact absurd directory old.ne_directory
  workingDirectory := changes.workingDirectory

/-- A directory of the store that could not be made still cannot be, and the other way round. -/
theorem isBlocked_eq {location : Location} (mem : location ∈ Store.folders base) :
    after.isBlocked location = tree.isBlocked location := by
  rcases changes.folders location mem with same | ⟨missing, made⟩
  · unfold FileTree.isBlocked
    rw [same]
  · rw [FileTree.isBlocked_eq_false.mpr (.inl missing), FileTree.isBlocked_of_directory made]

/-- What was in the way of a write still is, and nothing else. -/
theorem sameObstacles {write : FileWrite} (clear : write.location base ∉ Store.folders base) :
    write.SameObstacles base tree after where
  blocked location mem := changes.isBlocked_eq (write.directories_subset base mem)
  taken := by
    rcases changes.others _ clear with same | ⟨-, old, new⟩
    · rw [same]
    · exact iff_of_false new.ne_directory old.ne_directory

end ChangesOnly

variable {store : Store} {tree : FileTree} {base : Location}

/-- A single write makes its directories and puts its file there, at most. -/
theorem changesOnly_perform (at_root : tree.DirectoryAt store.root base) {write : FileWrite}
    (clear : write.location base ∉ folders base) :
    ChangesOnly base (· = write.location base) tree (store.perform write tree).1 := by
  have performed := performed_perform at_root write
  refine ⟨?_, ?_, performed.workingDirectory⟩
  · intro location mem
    rw [performed.node?_eq, FileWrite.leaves_of_mem_folders clear mem]
    split
    · rename_i made
      rcases FileTree.isBlocked_eq_false.mp (FileWrite.isBlocked_of_enters made.1 made.2) with
        missing | there
      · exact .inr ⟨missing, rfl⟩
      · exact .inl there.symm
    · exact .inl rfl
  · intro location not_folder
    rw [performed.node?_eq, FileWrite.leaves_of_not_mem_folders not_folder]
    split
    · rename_i here
      obtain ⟨ok, rfl⟩ := here
      have no_device := tree.node?_ne_fullDevice (write.location_ne_deviceLocation base)
      exact .inr ⟨rfl, Node.atMostFile_of_ne (FileWrite.ne_directory_of_isOk ok) no_device,
        .inr ⟨write.content, rfl⟩⟩
    · exact .inl rfl

/-- A run of writes makes directories and puts files where the writes go, at most. -/
theorem changesOnly_performAll (at_root : tree.DirectoryAt store.root base) {writes : List FileWrite}
    (clear : ∀ write ∈ writes, write.location base ∉ folders base) :
    ChangesOnly base (fun location => ∃ write ∈ writes, location = write.location base) tree
      (store.performAll writes tree).1 := by
  induction writes generalizing tree with
  | nil => exact .refl base _ tree
  | cons write rest ih =>
    have first := changesOnly_perform at_root (clear write List.mem_cons_self)
    have first' : ChangesOnly base (fun location => ∃ other ∈ write :: rest,
        location = other.location base) tree (store.perform write tree).1 :=
      first.mono fun location here => ⟨write, List.mem_cons_self, here⟩
    rw [performAll]
    rcases performed : store.perform write tree with ⟨next, e | path⟩
    · rw [performed] at first'
      exact first'
    · rw [performed] at first first'
      have later := ih (first.keepsDirectories.directoryAt at_root)
        fun other mem => clear other (List.mem_cons_of_mem _ mem)
      refine first'.trans (later.mono ?_)
      rintro location ⟨other, mem, here⟩
      exact ⟨other, List.mem_cons_of_mem _ mem, here⟩

theorem eq_of_locate_chains (at_root : tree.DirectoryAt store.root base) {name : String}
    (plain : PlainName name) {location : Location}
    (located : tree.locate (store.chainsDirectory / name) = .ok location) :
    location = chainsLocation base ++ [FileName.ofString name] := by
  obtain ⟨root, to_root, rfl⟩ := exists_of_locate_chains plain located
  obtain rfl := Except.ok.inj (at_root.walk_eq.symm.trans to_root)
  rfl

theorem eq_of_locate_scripts (at_root : tree.DirectoryAt store.root base) {name : String}
    (plain : PlainName name) {location : Location}
    (located : tree.locate (store.scriptsDirectory / name) = .ok location) :
    location = scriptLocation base name := by
  obtain ⟨root, to_root, rfl⟩ := exists_of_locate_scripts plain located
  obtain rfl := Except.ok.inj (at_root.walk_eq.symm.trans to_root)
  rfl

end Store

namespace Cleanup

open Store

variable {store : Store} {tree : FileTree} {base : Location} {files : Location → Prop}

/-- A file goes, and nothing else. -/
theorem changesOnly_removeOne {path : FilePath}
    (leads : ∀ location, tree.locate path = .ok location →
      location ∉ folders base ∧ location ≠ deviceLocation ∧ files location) :
    ChangesOnly base files tree (removeOne tree path).1 := by
  rcases removeOne_tree tree path with ⟨location, located, keeps, file, next⟩ | ⟨-, next⟩
  · obtain ⟨clear, no_device, own⟩ := leads location located
    rw [next]
    refine ⟨?_, ?_, tree.workingDirectory_erase location⟩
    · intro folder mem
      have elsewhere : folder ≠ location := by
        rintro rfl
        exact clear mem
      rw [FileTree.node?_erase keeps, if_neg elsewhere]
      exact .inl rfl
    · intro other _
      rw [FileTree.node?_erase keeps]
      split
      · rename_i here
        obtain ⟨content, there⟩ := FileTree.exists_content_of_isFile located (file no_device)
        exact .inr ⟨here ▸ own, here ▸ .inr ⟨content, there⟩, .inl rfl⟩
      · exact .inl rfl
  · rw [next]
    exact .refl base files tree

/-- A run of removals takes away files that its paths lead to, at most. -/
theorem changesOnly_removeAll (at_root : tree.DirectoryAt store.root base) {paths : List FilePath}
    (leads : ∀ path ∈ paths, ∀ other : FileTree, other.DirectoryAt store.root base →
      ∀ location, other.locate path = .ok location →
        location ∉ folders base ∧ location ≠ deviceLocation ∧ files location) :
    ChangesOnly base files tree (removeAll paths tree).1 := by
  induction paths generalizing tree with
  | nil => exact .refl base files tree
  | cons path rest ih =>
    have first : ChangesOnly base files tree (removeOne tree path).1 :=
      changesOnly_removeOne (leads path List.mem_cons_self tree at_root)
    exact first.trans (ih (directoryAt_removeOne at_root path)
      fun other mem => leads other (List.mem_cons_of_mem _ mem))

end Cleanup

end ChunkedChain
