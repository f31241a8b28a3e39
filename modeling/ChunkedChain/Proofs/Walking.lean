import ChunkedChain.FileTree.Operations
import ChunkedChain.Proofs.Paths

/-!
# Walking through a file tree

A walk only goes through directories, so it is not disturbed by a change that keeps them, as when a file
goes. What a plain name leads to in a directory depends on the place of the directory and on the name,
and on nothing else in the tree.
-/

namespace ChunkedChain

namespace FileTree

/-- What is at one location when the file at another one has gone. -/
theorem node?_erase {tree : FileTree} {location : Location}
    (file : tree.node? location ≠ some .directory) (other : Location) :
    (tree.erase location).node? other = if other = location then none else tree.node? other := by
  rw [erase, dif_neg file]
  change (tree.nodes.erase location)[other]? = _
  rw [Std.ExtTreeMap.getElem?_erase]
  simp only [Std.compare_eq_iff_eq, eq_comm (a := location)]
  rfl

theorem workingDirectory_erase (tree : FileTree) (location : Location) :
    (tree.erase location).workingDirectory = tree.workingDirectory := by
  unfold erase
  split <;> rfl

theorem walk_append (tree : FileTree) (location : Location) (first second : List Component) :
    tree.walk location (first ++ second) =
      (tree.walk location first).bind fun middle => tree.walk middle second := by
  induction first generalizing location with
  | nil => rfl
  | cons component rest ih =>
    rw [List.cons_append, walk, walk]
    cases tree.step location component with
    | ok next => exact ih next
    | error e => rfl

theorem walk_singleton (tree : FileTree) (location : Location) (component : Component) :
    tree.walk location [component] = tree.step location component := by
  rw [walk]
  cases tree.step location component <;> rfl

theorem step_congr {tree other : FileTree} {location : Location} {component : Component}
    (same : other.node? location = tree.node? location) :
    other.step location component = tree.step location component := by
  unfold step
  rw [same]

/-- A step that leads somewhere starts in a directory. -/
theorem directory_of_step {tree : FileTree} {location next : Location} {component : Component}
    (h : tree.step location component = .ok next) : tree.node? location = some .directory := by
  unfold step at h
  split at h
  · cases h
  · assumption
  · cases h

theorem step_name {tree : FileTree} {location : Location}
    (directory : tree.node? location = some .directory) (name : FileName) :
    tree.step location (.name name) =
      if maxNameLength < name.length then .error .nameTooLong else .ok (location ++ [name]) := by
  rw [step, directory]

/-- A step into a name leads there, whether or not something is there. -/
theorem eq_of_step_name {tree : FileTree} {location next : Location} {name : FileName}
    (h : tree.step location (.name name) = .ok next) : next = location ++ [name] := by
  rw [step_name (directory_of_step h)] at h
  split at h
  · cases h
  · exact (Except.ok.inj h).symm

/-- The directories of the first tree are in the second one too, and relative paths start alike. -/
structure KeepsDirectories (tree other : FileTree) : Prop where
  directory : ∀ location, tree.node? location = some .directory → other.node? location = some .directory
  workingDirectory : other.workingDirectory = tree.workingDirectory

namespace KeepsDirectories

variable {tree middle other : FileTree}

theorem refl (tree : FileTree) : tree.KeepsDirectories tree := ⟨fun _ h => h, rfl⟩

theorem trans (first : tree.KeepsDirectories middle) (second : middle.KeepsDirectories other) :
    tree.KeepsDirectories other where
  directory location h := second.directory location (first.directory location h)
  workingDirectory := second.workingDirectory.trans first.workingDirectory

theorem walk_eq (keeps : tree.KeepsDirectories other) {components : List Component}
    {location place : Location} (h : tree.walk location components = .ok place) :
    other.walk location components = .ok place := by
  induction components generalizing location with
  | nil => exact h
  | cons component rest ih =>
    rw [walk] at h
    cases stepped : tree.step location component with
    | error e =>
      rw [stepped] at h
      cases h
    | ok next =>
      rw [stepped] at h
      have directory := directory_of_step stepped
      have same : other.step location component = .ok next := by
        rw [step_congr, stepped]
        rw [directory, keeps.directory location directory]
      rw [walk, same]
      exact ih h

theorem start_eq (keeps : tree.KeepsDirectories other) (path : FilePath) :
    other.start path = tree.start path := by
  rw [start, start, keeps.workingDirectory]

theorem locate_eq (keeps : tree.KeepsDirectories other) {path : FilePath} {place : Location}
    (h : tree.locate path = .ok place) : other.locate path = .ok place := by
  rw [locate] at h ⊢
  split at h
  · cases h
  rw [if_neg ‹_›]
  split at h
  · cases h
  rw [if_neg ‹_›]
  split at h
  · cases h
  rw [if_neg ‹_›, keeps.start_eq]
  exact keeps.walk_eq h

end KeepsDirectories

/-- Directories stay when a file goes. -/
theorem keepsDirectories_erase {tree : FileTree} {gone : Location}
    (file : tree.node? gone ≠ some .directory) : tree.KeepsDirectories (tree.erase gone) where
  directory := by
    intro location there
    have apart : location ≠ gone := by
      rintro rfl
      exact file there
    rw [node?_erase file, if_neg apart, there]
  workingDirectory := tree.workingDirectory_erase gone

/-- The steps of the path lead to a directory at this location. -/
structure DirectoryAt (tree : FileTree) (dir : FilePath) (location : Location) : Prop where
  walk_eq : tree.walk (tree.start dir) dir.components = .ok location
  directory : tree.node? location = some .directory

theorem KeepsDirectories.directoryAt {tree other : FileTree} (keeps : tree.KeepsDirectories other)
    {dir : FilePath} {location : Location} (at_location : tree.DirectoryAt dir location) :
    other.DirectoryAt dir location where
  walk_eq := by
    rw [keeps.start_eq]
    exact keeps.walk_eq at_location.walk_eq
  directory := keeps.directory location at_location.directory

section Join

variable (tree : FileTree) {dir : FilePath} {name : String}

theorem start_join (plain : PlainName name) : tree.start (dir / name) = tree.start dir := by
  rw [start, start, FilePath.isAbsolute_join dir plain]

theorem walk_join (plain : PlainName name) :
    tree.walk (tree.start (dir / name)) (dir / name).components =
      (tree.walk (tree.start dir) dir.components).bind fun location =>
        tree.step location (.name (FileName.ofString name)) := by
  rw [tree.start_join plain, FilePath.components_join dir plain, walk_append]
  simp only [walk_singleton]

theorem locate_join (plain : PlainName name) :
    tree.locate (dir / name) =
      if (dir / name).holdsNul then .error .nulInName
      else if (dir / name).isTooLong then .error .nameTooLong
      else (tree.walk (tree.start dir) dir.components).bind fun location =>
        tree.step location (.name (FileName.ofString name)) := by
  rw [locate, FilePath.join_not_empty dir plain, FilePath.asksDirectory_join dir plain,
    ← tree.walk_join plain]
  simp

end Join

variable {tree : FileTree} {dir : FilePath} {name : String} {location : Location}

/-- What a plain name in a directory leads to: the tree is asked for nothing but the directory. -/
def childLocation (dir : FilePath) (location : Location) (name : String) : Except FileError Location :=
  if (dir / name).holdsNul then .error .nulInName
  else if (dir / name).isTooLong then .error .nameTooLong
  else if maxNameLength < (FileName.ofString name).length then .error .nameTooLong
  else .ok (location ++ [FileName.ofString name])

theorem DirectoryAt.locate_join (at_location : tree.DirectoryAt dir location) (plain : PlainName name) :
    tree.locate (dir / name) = childLocation dir location name := by
  rw [FileTree.locate_join tree plain, at_location.walk_eq, childLocation]
  simp only [Except.bind, step_name at_location.directory]

theorem eq_of_childLocation {place : Location} (h : childLocation dir location name = .ok place) :
    place = location ++ [FileName.ofString name] := by
  unfold childLocation at h
  split at h
  · cases h
  · split at h
    · cases h
    · split at h
      · cases h
      · exact (Except.ok.inj h).symm

/-- The location of a plain name is right below that of the directory. -/
theorem exists_of_walk_join (plain : PlainName name) {place : Location}
    (h : tree.walk (tree.start (dir / name)) (dir / name).components = .ok place) :
    ∃ location, tree.walk (tree.start dir) dir.components = .ok location ∧
      place = location ++ [FileName.ofString name] := by
  rw [tree.walk_join plain] at h
  cases walked : tree.walk (tree.start dir) dir.components with
  | error e =>
    rw [walked] at h
    cases h
  | ok location =>
    rw [walked] at h
    exact ⟨location, rfl, eq_of_step_name h⟩

theorem walk_of_locate_join (plain : PlainName name) {place : Location}
    (h : tree.locate (dir / name) = .ok place) :
    tree.walk (tree.start (dir / name)) (dir / name).components = .ok place := by
  rw [FileTree.locate_join tree plain] at h
  rw [tree.walk_join plain]
  split at h
  · cases h
  · split at h
    · cases h
    · exact h

/-- A path that is located leads there, with or without a slash at its end. -/
theorem directoryAt_of_locate
    (located : tree.locate dir = .ok location) (directory : tree.node? location = some .directory) :
    tree.DirectoryAt dir location := by
  refine ⟨?_, directory⟩
  unfold locate at located
  split at located
  · cases located
  split at located
  · cases located
  split at located
  · cases located
  rw [walk_append] at located
  cases walked : tree.walk (tree.start dir) dir.components with
  | error e =>
    rw [walked] at located
    cases located
  | ok place =>
    rw [walked] at located
    dsimp only [Except.bind] at located
    split at located
    · rw [walk_singleton, step] at located
      split at located
      · cases located
      · exact located
      · cases located
    · exact located

end FileTree

end ChunkedChain
