import ChunkedChain.Proofs.Writing

/-!
# What a single write does

A write is refused by what is in its way: something else in the place of one of its directories, or a
directory in the place of its file. How it ends and what it leaves are functions of these obstacles, so it
does in one tree what it does in any other one with the same obstacles.
-/

namespace ChunkedChain

namespace FileTree

/-- Trees are told apart by what is at a location, or by where relative paths start. -/
theorem ext_node? {tree other : FileTree} (same : ∀ location, other.node? location = tree.node? location)
    (start : other.workingDirectory = tree.workingDirectory) : other = tree := by
  obtain ⟨nodes, _, _, _⟩ := tree
  obtain ⟨others, _, _, _⟩ := other
  obtain rfl : others = nodes := Std.ExtTreeMap.ext_getElem? fun location => same location
  obtain rfl := start
  rfl

/-- Why no file can be written under a name in the directory at a location, if none can. -/
def refusal? (tree : FileTree) (dir : FilePath) (location : Location) (name : String) :
    Option FileError :=
  match childLocation dir location name with
  | .error e => some e
  | .ok place => if tree.node? place = some .directory then some .isDirectory else none

/-- The tree is asked for nothing but whether a directory is in the way of the file. -/
theorem refusal?_congr {tree other : FileTree} {location : Location} {name : String}
    (same : other.node? (location ++ [FileName.ofString name]) = some .directory ↔
      tree.node? (location ++ [FileName.ofString name]) = some .directory) (dir : FilePath) :
    other.refusal? dir location name = tree.refusal? dir location name := by
  unfold refusal?
  cases located : childLocation dir location name with
  | error e => rfl
  | ok place =>
    obtain rfl := eq_of_childLocation located
    simp only [same]

section WriteJoin

variable {tree : FileTree} {dir : FilePath} {location : Location} {name : String}

theorem write_of_refusal (at_location : tree.DirectoryAt dir location) (plain : PlainName name)
    {e : FileError} (refused : tree.refusal? dir location name = some e) (content : ByteArray) :
    tree.write (dir / name) content = .error e := by
  unfold refusal? at refused
  rw [write, at_location.locate_join plain]
  cases located : childLocation dir location name with
  | error e' =>
    rw [located] at refused
    exact congrArg _ (Option.some.inj refused)
  | ok place =>
    simp only [located, Option.ite_none_right_eq_some] at refused
    obtain ⟨directory, refused⟩ := refused
    simp [bind, Except.bind, directory, Option.some.inj refused]

theorem exists_write_of_no_refusal (at_location : tree.DirectoryAt dir location) (plain : PlainName name)
    (no_device : location ++ [FileName.ofString name] ≠ deviceLocation)
    (free : tree.refusal? dir location name = none) (content : ByteArray) :
    ∃ next, tree.write (dir / name) content = .ok next := by
  unfold refusal? at free
  rw [write, at_location.locate_join plain]
  cases located : childLocation dir location name with
  | error e =>
    rw [located] at free
    cases free
  | ok place =>
    obtain rfl := eq_of_childLocation located
    have no_device := tree.node?_ne_fullDevice no_device
    simp only [located, ite_eq_right_iff, reduceCtorEq, imp_false] at free
    rcases there : tree.node? (location ++ [FileName.ofString name]) with _ | _ | _ | _
    · simp [bind, Except.bind, there]
    · exact absurd there free
    · simp [bind, Except.bind, there]
    · exact absurd there no_device

end WriteJoin

end FileTree

namespace FileWrite

variable (store : Store) (base : Location) (tree : FileTree) (write : FileWrite)

/-- Why the directories of a write cannot be made, if they cannot. -/
def blockage? : Option FileError :=
  match write with
  | .script _ =>
    store.scriptsDirectory.refusal?.or <|
      if tree.isBlocked (Store.chainsLocation base) then some .notDirectory
      else if tree.isBlocked (Store.scriptsLocation base) then some .alreadyExists
      else none
  | .document _ _ =>
    store.chainsDirectory.refusal?.or <|
      if tree.isBlocked (Store.chainsLocation base) then some .alreadyExists else none

theorem blockage?_script (file : ScriptFile) :
    (FileWrite.script file).blockage? store base tree = store.scriptsDirectory.refusal?.or
      (if tree.isBlocked (Store.chainsLocation base) then some .notDirectory
      else if tree.isBlocked (Store.scriptsLocation base) then some .alreadyExists
      else none) := rfl

theorem blockage?_document (name : String) (steps : List Step) :
    (FileWrite.document name steps).blockage? store base tree = store.chainsDirectory.refusal?.or
      (if tree.isBlocked (Store.chainsLocation base) then some .alreadyExists else none) := rfl

/-- Why the file cannot be written once the directories are there, if it cannot. -/
def refusal? : Option FileError :=
  tree.refusal? (write.directory store) (write.parent base) write.name

/-- Whether a write gets as far as to its directories. -/
def enters : Bool := isFileName write.name && (write.blockage? store base tree).isNone

def outcome : Except StoreError FilePath :=
  if isFileName write.name then
    match write.blockage? store base tree with
    | some e => .error (.createDirectory (write.directory store) e)
    | none =>
      match write.refusal? store base tree with
      | some e => .error (write.failure (write.path store) e)
      | none => .ok (write.path store)
  else .error (.invalidFileName write.name)

def leaves (location : Location) : Option Node :=
  if write.enters store base tree ∧ location ∈ write.directories base then some .directory
  else if (write.outcome store base tree).isOk ∧ location = write.location base then
    some (.file write.content)
  else tree.node? location

variable {store base tree write}

theorem leaves_of_not_enters (outside : write.enters store base tree = false) {e : StoreError}
    (ends : write.outcome store base tree = .error e) (location : Location) :
    write.leaves store base tree location = tree.node? location := by
  simp [leaves, outside, ends, Except.isOk, Except.toBool]

theorem leaves_of_error (enters : write.enters store base tree = true) {e : StoreError}
    (ends : write.outcome store base tree = .error e) (location : Location) :
    write.leaves store base tree location =
      if location ∈ write.directories base then some .directory else tree.node? location := by
  simp [leaves, enters, ends, Except.isOk, Except.toBool]

theorem leaves_of_ok (enters : write.enters store base tree = true) {path : FilePath}
    (ends : write.outcome store base tree = .ok path) (location : Location) :
    write.leaves store base tree location =
      if location ∈ write.directories base then some .directory
      else if location = write.location base then some (.file write.content)
      else tree.node? location := by
  simp [leaves, enters, ends, Except.isOk, Except.toBool]

/-- In the place of a directory of the store, a write leaves that directory or what was there. -/
theorem leaves_of_mem_folders (clear : write.location base ∉ Store.folders base) {location : Location}
    (mem : location ∈ Store.folders base) :
    write.leaves store base tree location =
      if write.enters store base tree ∧ location ∈ write.directories base then some .directory
      else tree.node? location := by
  have elsewhere : location ≠ write.location base := by
    rintro rfl
    exact clear mem
  simp [leaves, elsewhere]

/-- Anywhere else it leaves its content, or what was there. -/
theorem leaves_of_not_mem_folders {location : Location} (not_folder : location ∉ Store.folders base) :
    write.leaves store base tree location =
      if (write.outcome store base tree).isOk ∧ location = write.location base then
        some (.file write.content)
      else tree.node? location := by
  have elsewhere : location ∉ write.directories base := fun mem =>
    not_folder (write.directories_subset base mem)
  simp [leaves, elsewhere]

theorem exists_ok_of_isOk (ok : (write.outcome store base tree).isOk = true) :
    ∃ path, write.outcome store base tree = .ok path := by
  cases ends : write.outcome store base tree with
  | ok path => exact ⟨path, rfl⟩
  | error e =>
    rw [ends] at ok
    cases ok

theorem refusal?_of_ok {path : FilePath} (ends : write.outcome store base tree = .ok path) :
    write.refusal? store base tree = none := by
  unfold outcome at ends
  split at ends
  · split at ends
    · cases ends
    split at ends
    · cases ends
    · assumption
  · cases ends

/-- A write does not take the place of a directory. -/
theorem ne_directory_of_isOk (ok : (write.outcome store base tree).isOk = true) :
    tree.node? (write.location base) ≠ some .directory := by
  intro directory
  obtain ⟨path, ends⟩ := exists_ok_of_isOk ok
  have free := refusal?_of_ok ends
  unfold refusal? FileTree.refusal? at free
  split at free
  · cases free
  · rename_i place located
    obtain rfl : place = write.location base := FileTree.eq_of_childLocation located
    rw [directory] at free
    cases free

/-- Only a name that is no file name is refused as such. -/
theorem isFileName_of_invalidFileName {name : String}
    (ends : write.outcome store base tree = .error (.invalidFileName name)) :
    isFileName write.name = false := by
  unfold outcome at ends
  split at ends
  · split at ends
    · cases ends
    split at ends
    · cases write with
      | script file => cases Except.error.inj ends
      | document _ steps =>
        simp only [failure, Store.documentFailure] at ends
        split at ends <;> cases Except.error.inj ends
    · cases ends
  · rename_i not_name
    simpa using not_name

/-- Nothing is in the way of the directories that a write gets to. -/
theorem isBlocked_of_enters (enters : write.enters store base tree = true) {location : Location}
    (mem : location ∈ write.directories base) : tree.isBlocked location = false := by
  rw [FileWrite.enters, Bool.and_eq_true, Option.isNone_iff_eq_none] at enters
  obtain ⟨-, free⟩ := enters
  cases write with
  | document name steps =>
    rw [blockage?_document, Option.or_eq_none_iff] at free
    obtain rfl := List.mem_singleton.mp mem
    simpa using free.2
  | script file =>
    rw [blockage?_script, Option.or_eq_none_iff] at free
    have free : tree.isBlocked (Store.chainsLocation base) = false ∧
        tree.isBlocked (Store.scriptsLocation base) = false := by grind
    rcases List.mem_cons.mp mem with rfl | mem
    · exact free.1
    · obtain rfl := List.mem_singleton.mp mem
      exact free.2

end FileWrite

namespace Store

variable {store : Store} {tree : FileTree} {base : Location} {write : FileWrite}

theorem chainsLocation_ne_scriptsLocation (base : Location) :
    chainsLocation base ≠ scriptsLocation base := by
  simp [scriptsLocation]

/-- What is in the way of the directory of scripts stands in the one of documents. -/
theorem directory_of_isBlocked_scripts (blocked : tree.isBlocked (scriptsLocation base) = true) :
    tree.node? (chainsLocation base) = some .directory := by
  have there : (tree.node? (scriptsLocation base)).isSome := by
    cases there : tree.node? (scriptsLocation base) with
    | some node => rfl
    | none =>
      rw [FileTree.isBlocked, there] at blocked
      cases blocked
  exact FileTree.directory_of_isSome there

section CreateDirectories

variable (at_root : tree.DirectoryAt store.root base)

include at_root

theorem createDirectories_document :
    tree.createDirectories store.chainsDirectory =
      store.chainsDirectory.refusal?.elim (tree.ensureAt (chainsLocation base))
        fun e => (tree, .error e) :=
  FileTree.createDirectories_child_eq at_root plain_chainsFolder short_chainsFolder

theorem createDirectories_script :
    tree.createDirectories store.scriptsDirectory =
      store.scriptsDirectory.refusal?.elim
        (if tree.isBlocked (chainsLocation base) then (tree, .error .notDirectory)
        else (tree.ensureAt (chainsLocation base)).1.ensureAt (scriptsLocation base))
        fun e => (tree, .error e) :=
  FileTree.createDirectories_grandchild_eq at_root plain_chainsFolder short_chainsFolder
    plain_scriptsFolder short_scriptsFolder

/-- Making the directory of documents does not change what is in the way of the one of scripts. -/
theorem isBlocked_scripts_ensureAt (free : tree.isBlocked (chainsLocation base) = false) :
    (tree.ensureAt (chainsLocation base)).1.isBlocked (scriptsLocation base) =
      tree.isBlocked (scriptsLocation base) := by
  have same : (tree.ensureAt (chainsLocation base)).1.node? (scriptsLocation base) =
      tree.node? (scriptsLocation base) :=
    (FileTree.node?_ensureAt free at_root.directory _).trans
      (if_neg (chainsLocation_ne_scriptsLocation base).symm)
  unfold FileTree.isBlocked
  rw [same]

theorem createDirectories_of_blockage {e : FileError}
    (blocked : write.blockage? store base tree = some e) :
    tree.createDirectories (write.directory store) = (tree, .error e) := by
  cases write with
  | document name steps =>
    change tree.createDirectories store.chainsDirectory = _
    rw [createDirectories_document at_root]
    rw [FileWrite.blockage?_document] at blocked
    cases refused : store.chainsDirectory.refusal? with
    | some e' =>
      rw [refused, Option.some_or] at blocked
      rw [Option.some.inj blocked, Option.elim_some]
    | none =>
      rw [refused, Option.none_or] at blocked
      split at blocked
      · rw [← Option.some.inj blocked]
        exact FileTree.ensureAt_of_blocked ‹_›
      · cases blocked
  | script file =>
    change tree.createDirectories store.scriptsDirectory = _
    rw [createDirectories_script at_root]
    rw [FileWrite.blockage?_script] at blocked
    cases refused : store.scriptsDirectory.refusal? with
    | some e' =>
      rw [refused, Option.some_or] at blocked
      rw [Option.some.inj blocked, Option.elim_some]
    | none =>
      rw [refused, Option.none_or] at blocked
      rw [Option.elim_none]
      split at blocked
      · rw [if_pos ‹_›, Option.some.inj blocked]
      split at blocked
      · rw [if_neg ‹_›, FileTree.ensureAt_of_directory (directory_of_isBlocked_scripts ‹_›),
          FileTree.ensureAt_of_blocked ‹_›, Option.some.inj blocked]
      · cases blocked

theorem createDirectories_of_no_blockage (free : write.blockage? store base tree = none) :
    ∃ made, tree.createDirectories (write.directory store) = (made, .ok ()) := by
  cases write with
  | document name steps =>
    change ∃ made, tree.createDirectories store.chainsDirectory = _
    rw [FileWrite.blockage?_document] at free
    obtain ⟨taken, free⟩ := Option.or_eq_none_iff.mp free
    rw [createDirectories_document at_root, taken]
    have free : tree.isBlocked (chainsLocation base) = false := by simpa using free
    exact ⟨_, Prod.ext rfl (FileTree.ensureAt_ok free)⟩
  | script file =>
    change ∃ made, tree.createDirectories store.scriptsDirectory = _
    rw [FileWrite.blockage?_script] at free
    obtain ⟨taken, free⟩ := Option.or_eq_none_iff.mp free
    rw [createDirectories_script at_root, taken]
    have free : tree.isBlocked (chainsLocation base) = false ∧
        tree.isBlocked (scriptsLocation base) = false := by grind
    have inner := (isBlocked_scripts_ensureAt at_root free.1).trans free.2
    simp only [free.1, Bool.false_eq_true, if_false]
    exact ⟨_, Prod.ext rfl (FileTree.ensureAt_ok inner)⟩

/-- Where the directories of a write can be made, they are, and nothing else is changed. -/
theorem node?_of_createDirectories {made : FileTree}
    (created : tree.createDirectories (write.directory store) = (made, .ok ())) (location : Location) :
    made.node? location =
      if location ∈ write.directories base then some .directory else tree.node? location := by
  obtain ⟨among, there⟩ := madeAmong_createDirectories at_root write created
  split
  · exact there rfl location ‹_›
  · exact among.kept location ‹_›

end CreateDirectories

section Perform

/-- How a write ended, and what it left, where it ended as it should have. -/
structure Performed (store : Store) (base : Location) (write : FileWrite) (tree : FileTree)
    (result : FileTree × Except StoreError FilePath) : Prop where
  outcome : result.2 = write.outcome store base tree
  node?_eq : ∀ location, result.1.node? location = write.leaves store base tree location
  workingDirectory : result.1.workingDirectory = tree.workingDirectory

theorem performed_of_not_enters (outside : write.enters store base tree = false) {e : StoreError}
    (ends : write.outcome store base tree = .error e) :
    store.Performed base write tree (tree, .error e) where
  outcome := ends.symm
  node?_eq location := (FileWrite.leaves_of_not_enters outside ends location).symm
  workingDirectory := rfl

section Entered

variable {made : FileTree} (among : tree.MadeAmong made (write.directories base))
  (nodes : ∀ location, made.node? location =
    if location ∈ write.directories base then some .directory else tree.node? location)
  (enters : write.enters store base tree = true)

include among nodes enters

/-- The directories are there, the file is not written. -/
theorem performed_of_refused {e : StoreError} (ends : write.outcome store base tree = .error e) :
    store.Performed base write tree (made, .error e) where
  outcome := ends.symm
  node?_eq location := by
    rw [FileWrite.leaves_of_error enters ends, ← nodes location]
  workingDirectory := among.workingDirectory

/-- The directories are there, and the file is written. -/
theorem performed_of_overwrote {next : FileTree} {path : FilePath}
    (ends : write.outcome store base tree = .ok path)
    (overwrote : made.Overwrote next (write.location base) write.content) :
    store.Performed base write tree (next, .ok path) where
  outcome := ends.symm
  node?_eq location := by
    rw [FileWrite.leaves_of_ok enters ends]
    by_cases here : location = write.location base
    · have not_made := location_not_mem_directories base write
      rw [here, if_neg not_made, if_pos rfl, overwrote.written]
    · rw [if_neg here, ← nodes location]
      exact overwrote.kept location here
  workingDirectory := overwrote.workingDirectory.trans among.workingDirectory

end Entered

/-- How a write ends and what it leaves are told by what is in its way. -/
theorem performed_perform (at_root : tree.DirectoryAt store.root base) (write : FileWrite) :
    store.Performed base write tree (store.perform write tree) := by
  rw [perform_eq, writeFile]
  cases is_name : isFileName write.name with
  | false =>
    refine performed_of_not_enters ?_ ?_
    · rw [FileWrite.enters, is_name, Bool.false_and]
    · simp [FileWrite.outcome, is_name]
  | true =>
    cases blocked : write.blockage? store base tree with
    | some e =>
      rw [createDirectories_of_blockage at_root blocked]
      refine performed_of_not_enters ?_ ?_
      · rw [FileWrite.enters, blocked, Option.isNone_some, Bool.and_false]
      · simp [FileWrite.outcome, is_name, blocked]
    | none =>
      have enters : write.enters store base tree = true := by
        rw [FileWrite.enters, is_name, blocked]
        rfl
      obtain ⟨made, created⟩ := createDirectories_of_no_blockage at_root blocked
      have nodes := node?_of_createDirectories at_root created
      have among := (madeAmong_createDirectories at_root write created).1
      have at_directory := directoryAt_directory (among.keepsDirectories.directoryAt at_root) write
        ((nodes _).trans (if_pos (write.parent_mem_directories base)))
      have plain := plainName_of_isFileName is_name
      have same : made.node? (write.location base) = tree.node? (write.location base) :=
        (nodes _).trans (if_neg (location_not_mem_directories base write))
      have taken : made.node? (write.location base) = some .directory ↔
          tree.node? (write.location base) = some .directory := by rw [same]
      have refusal := FileTree.refusal?_congr taken (write.directory store)
      simp only [Bool.not_true, Bool.false_eq_true, if_false, created]
      cases refused : write.refusal? store base tree with
      | some e =>
        have failed : made.write (write.directory store / write.name) write.text.toUTF8 = .error e :=
          FileTree.write_of_refusal at_directory plain (refusal.trans refused) _
        rw [failed]
        apply performed_of_refused among nodes enters
        simp [FileWrite.outcome, is_name, blocked, refused, FileWrite.path]
      | none =>
        have no_device := write.location_ne_deviceLocation base
        obtain ⟨next, wrote⟩ := FileTree.exists_write_of_no_refusal at_directory plain no_device
          (refusal.trans refused) write.content
        have wrote : made.write (write.directory store / write.name) write.text.toUTF8 = .ok next := wrote
        rw [wrote]
        apply performed_of_overwrote among nodes enters
        · simp [FileWrite.outcome, is_name, blocked, refused, FileWrite.path]
        · exact (FileTree.overwrote_of_write at_directory plain no_device wrote).2

end Perform

end Store

namespace FileWrite

variable {store : Store} {base : Location} {tree other : FileTree} {write : FileWrite}

/-- In both trees the same is in the way of a write. -/
structure SameObstacles (base : Location) (write : FileWrite) (tree other : FileTree) : Prop where
  blocked : ∀ location ∈ write.directories base, other.isBlocked location = tree.isBlocked location
  taken : other.node? (write.location base) = some .directory ↔
    tree.node? (write.location base) = some .directory

namespace SameObstacles

variable (same : write.SameObstacles base tree other)

include same

theorem blockage?_eq (store : Store) :
    write.blockage? store base other = write.blockage? store base tree := by
  have blocked := same.blocked
  cases write with
  | document name steps =>
    rw [blockage?_document, blockage?_document, blocked _ List.mem_cons_self]
  | script file =>
    rw [blockage?_script, blockage?_script, blocked _ List.mem_cons_self,
      blocked _ (List.mem_cons_of_mem _ List.mem_cons_self)]

theorem refusal?_eq (store : Store) :
    write.refusal? store base other = write.refusal? store base tree :=
  FileTree.refusal?_congr same.taken _

theorem enters_eq (store : Store) : write.enters store base other = write.enters store base tree := by
  rw [enters, enters, same.blockage?_eq]

theorem outcome_eq (store : Store) :
    write.outcome store base other = write.outcome store base tree := by
  rw [outcome, outcome, same.blockage?_eq, same.refusal?_eq]

end SameObstacles

end FileWrite

end ChunkedChain
