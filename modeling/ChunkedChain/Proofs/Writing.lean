import ChunkedChain.Proofs.Making
import ChunkedChain.Store

/-!
# Writing files below a states root

A write puts its content where its name says, makes the directories on the way there, and changes nothing
else; a write that fails makes directories at most. So after a run of writes in which no file takes the
place of a directory, every file holds what the last write to it put there.
-/

namespace ChunkedChain

theorem plainName_of_isFileName {name : String} (h : isFileName name = true) : PlainName name := by
  simp only [isFileName, Bool.not_eq_true', Bool.or_eq_false_iff] at h
  obtain ⟨⟨⟨⟨full, not_here⟩, not_up⟩, no_slash⟩, -⟩ := h
  refine ⟨by simpa using no_slash, ?_⟩
  unfold FilePath.component?
  split
  · rename_i empty
    obtain rfl := String.toList_eq_nil_iff.mp empty
    cases full
  · rename_i here
    obtain rfl : name = "." := String.toList_inj.mp here
    cases not_here
  · rename_i up
    obtain rfl : name = ".." := String.toList_inj.mp up
    cases not_up
  · rw [String.ofList_toList]

namespace FileTree

/-- The tree `next` is the tree with the content written at a location. -/
structure Overwrote (tree next : FileTree) (location : Location) (content : ByteArray) : Prop where
  free : tree.node? location ≠ some .directory
  written : next.node? location = some (.file content)
  kept : ∀ other, other ≠ location → next.node? other = tree.node? other
  workingDirectory : next.workingDirectory = tree.workingDirectory

section WriteJoin

variable {tree next : FileTree} {dir : FilePath} {location : Location} {name : String}
  {content : ByteArray}

theorem overwrote_of_write (at_location : tree.DirectoryAt dir location) (plain : PlainName name)
    (no_device : location ++ [FileName.ofString name] ≠ deviceLocation)
    (h : tree.write (dir / name) content = .ok next) :
    childLocation dir location name = .ok (location ++ [FileName.ofString name]) ∧
      tree.Overwrote next (location ++ [FileName.ofString name]) content := by
  rw [write, at_location.locate_join plain] at h
  cases located : childLocation dir location name with
  | error e =>
    rw [located] at h
    cases h
  | ok place =>
    obtain rfl := eq_of_childLocation located
    rw [located] at h
    dsimp only [bind, Except.bind] at h
    refine ⟨rfl, ?_⟩
    split at h
    · cases h
    · rename_i device
      exact absurd device (tree.node?_ne_fullDevice no_device)
    · rename_i not_directory _
      cases h
      have can : tree.CanPut location (FileName.ofString name) (.file content) :=
        ⟨at_location.directory, not_directory, fun same => by cases same⟩
      refine ⟨not_directory, ?_, ?_, tree.workingDirectory_putAt _ _⟩
      · rw [node?_putAt can, if_pos rfl]
      · intro other apart
        rw [node?_putAt can, if_neg apart]

theorem find_of_childLocation (at_location : tree.DirectoryAt dir location) (plain : PlainName name)
    {place : Location} (located : childLocation dir location name = .ok place) {node : Node}
    (there : tree.node? place = some node) : tree.find (dir / name) = .ok node := by
  rw [find, at_location.locate_join plain, located]
  simp [bind, Except.bind, there]

end WriteJoin

end FileTree

namespace Store

def chainsLocation (base : Location) : Location := base ++ [FileName.ofString chainsFolder]

def scriptsLocation (base : Location) : Location :=
  chainsLocation base ++ [FileName.ofString scriptsFolder]

def folders (base : Location) : List Location := [chainsLocation base, scriptsLocation base]

theorem chains_mem_folders (base : Location) : chainsLocation base ∈ folders base := List.mem_cons_self

theorem scripts_mem_folders (base : Location) : scriptsLocation base ∈ folders base :=
  List.mem_cons_of_mem _ List.mem_cons_self

/-- The device stands in neither of the directories of the store, wherever the states root is. -/
theorem append_ne_deviceLocation {base dir : Location} (mem : dir ∈ folders base) (name : FileName) :
    dir ++ [name] ≠ deviceLocation := by
  intro same
  have parents : dir = [FileName.ofString "dev"] := by
    simpa [deviceLocation] using congrArg List.dropLast same
  have lasts := congrArg List.getLast? parents
  rcases List.mem_cons.mp mem with rfl | mem
  · rw [chainsLocation, List.getLast?_concat] at lasts
    exact absurd lasts (by decide)
  · obtain rfl := List.mem_singleton.mp mem
    rw [scriptsLocation, List.getLast?_concat] at lasts
    exact absurd lasts (by decide)

theorem plain_chainsFolder : PlainName chainsFolder := .of_length (by decide) (by decide)

theorem plain_scriptsFolder : PlainName scriptsFolder := .of_length (by decide) (by decide)

theorem short_chainsFolder : (FileName.ofString chainsFolder).length ≤ FileTree.maxNameLength := by
  decide

theorem short_scriptsFolder : (FileName.ofString scriptsFolder).length ≤ FileTree.maxNameLength := by
  decide

/-- The path of a plain name in the directory of documents leads into it, wherever the states root is. -/
theorem exists_of_locate_chains {store : Store} {tree : FileTree} {name : String} (plain : PlainName name)
    {location : Location} (located : tree.locate (store.chainsDirectory / name) = .ok location) :
    ∃ base, tree.walk (tree.start store.root) store.root.components = .ok base ∧
      location = chainsLocation base ++ [FileName.ofString name] := by
  obtain ⟨chains, to_chains, rfl⟩ :=
    FileTree.exists_of_walk_join plain (FileTree.walk_of_locate_join plain located)
  obtain ⟨base, to_root, rfl⟩ := FileTree.exists_of_walk_join plain_chainsFolder to_chains
  exact ⟨base, to_root, rfl⟩

/-- So does that of a plain name in the directory of scripts. -/
theorem exists_of_locate_scripts {store : Store} {tree : FileTree} {name : String} (plain : PlainName name)
    {location : Location} (located : tree.locate (store.scriptsDirectory / name) = .ok location) :
    ∃ base, tree.walk (tree.start store.root) store.root.components = .ok base ∧
      location = scriptsLocation base ++ [FileName.ofString name] := by
  obtain ⟨scripts, to_scripts, rfl⟩ :=
    FileTree.exists_of_walk_join plain (FileTree.walk_of_locate_join plain located)
  obtain ⟨chains, to_chains, rfl⟩ := FileTree.exists_of_walk_join plain_scriptsFolder to_scripts
  obtain ⟨base, to_root, rfl⟩ := FileTree.exists_of_walk_join plain_chainsFolder to_chains
  exact ⟨base, to_root, rfl⟩

theorem directoryAt_chains {store : Store} {tree : FileTree} {base : Location}
    (at_root : tree.DirectoryAt store.root base)
    (there : tree.node? (chainsLocation base) = some .directory) :
    tree.DirectoryAt store.chainsDirectory (chainsLocation base) :=
  at_root.child plain_chainsFolder short_chainsFolder there

theorem directoryAt_scripts {store : Store} {tree : FileTree} {base : Location}
    (at_root : tree.DirectoryAt store.root base)
    (there : tree.node? (scriptsLocation base) = some .directory) :
    tree.DirectoryAt store.scriptsDirectory (scriptsLocation base) := by
  have above : tree.node? (chainsLocation base) = some .directory :=
    FileTree.directory_of_isSome (Option.isSome_of_eq_some there)
  exact (directoryAt_chains at_root above).child plain_scriptsFolder short_scriptsFolder there

end Store

namespace FileWrite

def name : FileWrite → String
  | .script file => file.name
  | .document name _ => name

def text : FileWrite → String
  | .script file => file.contents
  | .document _ steps => renderDocument steps

def content (write : FileWrite) : ByteArray := write.text.toUTF8

def directory (store : Store) : FileWrite → FilePath
  | .script _ => store.scriptsDirectory
  | .document _ _ => store.chainsDirectory

def path (store : Store) (write : FileWrite) : FilePath := write.directory store / write.name

/-- How a write fails that is refused by the tree. -/
def failure : FileWrite → FilePath → FileError → StoreError
  | .script _ => .write
  | .document _ steps => Store.documentFailure (renderDocument steps)

def parent (base : Location) : FileWrite → Location
  | .script _ => Store.scriptsLocation base
  | .document _ _ => Store.chainsLocation base

def location (base : Location) (write : FileWrite) : Location :=
  write.parent base ++ [FileName.ofString write.name]

def directories (base : Location) : FileWrite → List Location
  | .script _ => [Store.chainsLocation base, Store.scriptsLocation base]
  | .document _ _ => [Store.chainsLocation base]

theorem parent_mem_directories (base : Location) (write : FileWrite) :
    write.parent base ∈ write.directories base := by
  cases write <;> simp [parent, directories]

theorem directories_subset (base : Location) (write : FileWrite) :
    write.directories base ⊆ Store.folders base := by
  cases write <;> simp [directories, Store.folders]

theorem location_ne_deviceLocation (base : Location) (write : FileWrite) :
    write.location base ≠ deviceLocation :=
  Store.append_ne_deviceLocation (write.directories_subset base (write.parent_mem_directories base)) _

end FileWrite

namespace Store

variable {store : Store} {tree next after : FileTree} {base : Location}

theorem perform_eq (store : Store) (write : FileWrite) (tree : FileTree) :
    store.perform write tree =
      writeFile (write.directory store) write.name write.text write.failure tree := by
  cases write <;> rfl

section WriteFile

variable {dir : FilePath} {name content : String} {failure : FilePath → FileError → StoreError}

theorem writeFile_ok {path : FilePath} (h : writeFile dir name content failure tree = (next, .ok path)) :
    isFileName name = true ∧ path = dir / name ∧
      ∃ made, tree.createDirectories dir = (made, .ok ()) ∧
        made.write (dir / name) content.toUTF8 = .ok next := by
  unfold writeFile at h
  split at h
  · cases h
  · rename_i is_name
    refine ⟨by simpa using is_name, ?_⟩
    split at h
    · cases h
    · rename_i made created
      split at h
      · rename_i written wrote
        obtain ⟨rfl, outcome⟩ := Prod.mk.inj h
        exact ⟨(Except.ok.inj outcome).symm, made, created, wrote⟩
      · cases h

theorem writeFile_error {e : StoreError}
    (h : writeFile dir name content failure tree = (next, .error e)) :
    next = tree ∨ ∃ outcome, tree.createDirectories dir = (next, outcome) := by
  unfold writeFile at h
  split at h
  · exact .inl (Prod.mk.inj h).1.symm
  · split at h
    · rename_i made cause created
      obtain ⟨rfl, -⟩ := Prod.mk.inj h
      exact .inr ⟨_, created⟩
    · rename_i made created
      split at h
      · cases h
      · obtain ⟨rfl, -⟩ := Prod.mk.inj h
        exact .inr ⟨_, created⟩

end WriteFile

/-- The directories of a write are made on the way to its own. -/
theorem madeAmong_createDirectories (at_root : tree.DirectoryAt store.root base) (write : FileWrite)
    {outcome : Except FileError Unit}
    (h : tree.createDirectories (write.directory store) = (next, outcome)) :
    tree.MadeAmong next (write.directories base) ∧
      (outcome = .ok () → ∀ location ∈ write.directories base,
        next.node? location = some .directory) := by
  cases write with
  | script file =>
    obtain ⟨among, there⟩ := FileTree.createDirectories_grandchild at_root plain_chainsFolder
      short_chainsFolder plain_scriptsFolder short_scriptsFolder h
    refine ⟨among, fun ok location mem => ?_⟩
    obtain ⟨chains, scripts⟩ := there ok
    rcases List.mem_cons.mp mem with rfl | mem
    · exact chains
    · obtain rfl := List.mem_singleton.mp mem
      exact scripts
  | document name steps =>
    obtain ⟨among, there⟩ := FileTree.createDirectories_child at_root plain_chainsFolder
      short_chainsFolder h
    refine ⟨among, fun ok location mem => ?_⟩
    obtain rfl := List.mem_singleton.mp mem
    exact there ok

theorem directoryAt_directory (at_root : tree.DirectoryAt store.root base) (write : FileWrite)
    (there : tree.node? (write.parent base) = some .directory) :
    tree.DirectoryAt (write.directory store) (write.parent base) := by
  cases write with
  | script file => exact directoryAt_scripts at_root there
  | document name steps => exact directoryAt_chains at_root there

/-- The tree `next` is the tree after a write below `base` that succeeded. -/
structure Wrote (store : Store) (base : Location) (write : FileWrite) (tree next : FileTree) : Prop where
  isFileName : isFileName write.name = true
  /-- The path of the file leads to its location. -/
  named : FileTree.childLocation (write.directory store) (write.parent base) write.name =
    .ok (write.location base)
  made : ∀ location ∈ write.directories base, next.node? location = some .directory
  free : tree.node? (write.location base) ≠ some .directory
  written : next.node? (write.location base) = some (.file write.content)
  kept : ∀ location, location ∉ write.directories base → location ≠ write.location base →
    next.node? location = tree.node? location
  workingDirectory : next.workingDirectory = tree.workingDirectory

theorem location_not_mem_directories (base : Location) (write : FileWrite) :
    write.location base ∉ write.directories base := by
  cases write <;> simp [FileWrite.location, FileWrite.parent, FileWrite.directories, scriptsLocation]

theorem wrote_of_perform (at_root : tree.DirectoryAt store.root base) {write : FileWrite}
    {path : FilePath} (h : store.perform write tree = (next, .ok path)) :
    path = write.path store ∧ store.Wrote base write tree next := by
  rw [perform_eq] at h
  obtain ⟨is_name, rfl, middle, created, wrote⟩ := writeFile_ok h
  have plain := plainName_of_isFileName is_name
  obtain ⟨among, there⟩ := madeAmong_createDirectories at_root write created
  have at_directory := directoryAt_directory (among.keepsDirectories.directoryAt at_root) write
    (there rfl _ (write.parent_mem_directories base))
  obtain ⟨named, overwrote⟩ := FileTree.overwrote_of_write at_directory plain
    (write.location_ne_deviceLocation base) wrote
  have same := among.kept _ (location_not_mem_directories base write)
  refine ⟨rfl, is_name, named, ?_, same ▸ overwrote.free, overwrote.written, ?_, ?_⟩
  · intro location mem
    have apart : location ≠ write.location base := by
      rintro rfl
      exact location_not_mem_directories base write mem
    rw [overwrote.kept location apart]
    exact there rfl location mem
  · intro location not_directory apart
    rw [overwrote.kept location apart, among.kept location not_directory]
  · exact overwrote.workingDirectory.trans among.workingDirectory

/-- A write that fails makes directories at most. -/
theorem madeAmong_of_perform_error (at_root : tree.DirectoryAt store.root base) {write : FileWrite}
    {e : StoreError} (h : store.perform write tree = (next, .error e)) :
    tree.MadeAmong next (write.directories base) := by
  rw [perform_eq] at h
  rcases writeFile_error h with rfl | ⟨outcome, created⟩
  · exact .refl next _
  · exact (madeAmong_createDirectories at_root write created).1

theorem Wrote.keepsDirectories {write : FileWrite} (wrote : store.Wrote base write tree next) :
    tree.KeepsDirectories next where
  directory := by
    intro location there
    by_cases mem : location ∈ write.directories base
    · exact wrote.made location mem
    · have apart : location ≠ write.location base := by
        rintro rfl
        exact wrote.free there
      rw [wrote.kept location mem apart, there]
  workingDirectory := wrote.workingDirectory

/-- No file of these writes takes the place of a directory. -/
def Apart (base : Location) (writes : List FileWrite) : Prop :=
  ∀ write ∈ writes, ∀ other ∈ writes, write.location base ∉ other.directories base

theorem Apart.tail {write : FileWrite} {rest : List FileWrite} (apart : Apart base (write :: rest)) :
    Apart base rest := fun first mem second mem' =>
  apart first (List.mem_cons_of_mem _ mem) second (List.mem_cons_of_mem _ mem')

/-- The tree `after` is the tree after a run of writes below `base` that succeeded. -/
structure WroteAll (store : Store) (base : Location) (writes : List FileWrite)
    (tree after : FileTree) : Prop where
  isFileName : ∀ write ∈ writes, isFileName write.name = true
  named : ∀ write ∈ writes,
    FileTree.childLocation (write.directory store) (write.parent base) write.name =
      .ok (write.location base)
  made : ∀ write ∈ writes, ∀ location ∈ write.directories base, after.node? location = some .directory
  /-- Every file holds what the last write to it put there. -/
  written : ∀ earlier write later, writes = earlier ++ write :: later →
    (∀ other ∈ later, other.location base ≠ write.location base) →
    after.node? (write.location base) = some (.file write.content)
  kept : ∀ location, (∀ write ∈ writes, location ∉ write.directories base) →
    (∀ write ∈ writes, location ≠ write.location base) → after.node? location = tree.node? location
  keepsDirectories : tree.KeepsDirectories after

theorem WroteAll.nil (store : Store) (base : Location) (tree : FileTree) :
    store.WroteAll base [] tree tree where
  isFileName := fun _ mem => absurd mem List.not_mem_nil
  named := fun _ mem => absurd mem List.not_mem_nil
  made := fun _ mem => absurd mem List.not_mem_nil
  written := by simp
  kept := fun _ _ _ => rfl
  keepsDirectories := .refl tree

theorem WroteAll.cons {write : FileWrite} {rest : List FileWrite} (apart : Apart base (write :: rest))
    (first : store.Wrote base write tree next) (others : store.WroteAll base rest next after) :
    store.WroteAll base (write :: rest) tree after where
  isFileName := List.forall_mem_cons.mpr ⟨first.isFileName, others.isFileName⟩
  named := List.forall_mem_cons.mpr ⟨first.named, others.named⟩
  made := by
    refine List.forall_mem_cons.mpr ⟨?_, others.made⟩
    intro location mem
    exact others.keepsDirectories.directory location (first.made location mem)
  written := by
    intro earlier last later split alone
    -- The last write to a file is the first of all, and then the others keep off, or it comes later.
    rcases List.cons_eq_append_iff.mp split with ⟨rfl, same⟩ | ⟨before, rfl, rest_split⟩
    · obtain ⟨rfl, rfl⟩ := List.cons.inj same
      rw [others.kept, first.written]
      · intro other mem
        exact apart last List.mem_cons_self other (List.mem_cons_of_mem _ mem)
      · intro other mem
        exact (alone other mem).symm
    · exact others.written before last later rest_split alone
  kept := by
    intro location not_directory elsewhere
    have not_directory := List.forall_mem_cons.mp not_directory
    have elsewhere := List.forall_mem_cons.mp elsewhere
    rw [others.kept location not_directory.2 elsewhere.2,
      first.kept location not_directory.1 elsewhere.1]
  keepsDirectories := first.keepsDirectories.trans others.keepsDirectories

/-- A run without a failure has done all its writes. -/
theorem wroteAll_of_performAll (at_root : tree.DirectoryAt store.root base) {writes : List FileWrite}
    (apart : Apart base writes) {run : WriteRun} (h : store.performAll writes tree = (after, run))
    (ok : run.failure = none) :
    run.done = writes.map (fun write => (write, write.path store)) ∧
      store.WroteAll base writes tree after := by
  induction writes generalizing tree run with
  | nil =>
    cases h
    exact ⟨rfl, .nil store base _⟩
  | cons write rest ih =>
    rw [performAll] at h
    split at h
    · cases h
      cases ok
    · -- The states root is where it was, so the rest of the run starts under the same conditions.
      rename_i next path performed
      obtain ⟨rfl, wrote⟩ := wrote_of_perform at_root performed
      rcases performed_rest : store.performAll rest next with ⟨last, later⟩
      rw [performed_rest] at h
      obtain ⟨rfl, rfl⟩ := Prod.mk.inj h
      obtain ⟨done, others⟩ := ih (wrote.keepsDirectories.directoryAt at_root) apart.tail
        performed_rest ok
      exact ⟨congrArg (_ :: ·) done, .cons apart wrote others⟩

end Store

end ChunkedChain
