import ChunkedChain.Cleanup
import ChunkedChain.Proofs.Walking
import Mathlib.Data.List.Basic

/-!
# Removing paths one after the other

Every path is removed from the tree that the removals before it left. If none of them changes what a
later path leads to, the outcomes are those on the first tree. Where no path leads to the device, exactly
the files among the paths are gone.
-/

namespace ChunkedChain

namespace FileTree

def isFile (tree : FileTree) (path : FilePath) : Bool :=
  match tree.find path with
  | .ok (.file _) => true
  | _ => false

/-- The path and the reason, if it cannot be removed although something may be there. -/
def removalError? (tree : FileTree) (path : FilePath) : Option (FilePath × String) :=
  match tree.remove path with
  | .ok _ => none
  | .error .notFound => none
  | .error e => some (path, e.message)

/-- The tree `after` is the tree without what the removed paths led to. -/
structure Without (tree after : FileTree) (removed : List FilePath) : Prop where
  gone : ∀ path ∈ removed, ∀ location, tree.locate path = .ok location → after.node? location = none
  kept : ∀ location, (∀ path ∈ removed, tree.locate path ≠ .ok location) →
    after.node? location = tree.node? location
  workingDirectory : after.workingDirectory = tree.workingDirectory

/-- In both trees the path leads to the same location, with the same thing there. -/
structure SameAt (tree other : FileTree) (path : FilePath) : Prop where
  locate_eq : other.locate path = tree.locate path
  node?_eq : ∀ location, tree.locate path = .ok location → other.node? location = tree.node? location

theorem Without.refl (tree : FileTree) : tree.Without tree [] where
  gone := fun _ mem => absurd mem List.not_mem_nil
  kept := fun _ _ => rfl
  workingDirectory := rfl

theorem Without.trans {tree middle after : FileTree} {first second : List FilePath}
    (without_first : tree.Without middle first) (without_second : middle.Without after second)
    (same : ∀ path ∈ second, middle.locate path = tree.locate path) :
    tree.Without after (first ++ second) where
  gone := by
    intro path mem location located
    rcases List.mem_append.mp mem with early | late
    · by_cases again : ∃ other ∈ second, middle.locate other = .ok location
      · obtain ⟨other, mem_other, located_other⟩ := again
        exact without_second.gone other mem_other location located_other
      · rw [without_second.kept location fun other mem_other here => again ⟨other, mem_other, here⟩]
        exact without_first.gone path early location located
    · exact without_second.gone path late location ((same path late).trans located)
  kept := by
    intro location apart
    rw [without_second.kept location, without_first.kept location]
    · exact fun path mem => apart path (List.mem_append_left _ mem)
    · intro path mem
      rw [same path mem]
      exact apart path (List.mem_append_right _ mem)
  workingDirectory := without_second.workingDirectory.trans without_first.workingDirectory

section Located

variable {tree : FileTree} {path : FilePath}

theorem find_of_locate {location : Location} (located : tree.locate path = .ok location) :
    tree.find path =
      match tree.node? location with
      | some node => .ok node
      | none => .error .notFound := by
  rw [find, located]
  rfl

theorem find_of_error {e : FileError} (lost : tree.locate path = .error e) :
    tree.find path = .error e := by
  rw [find, lost]
  rfl

theorem remove_of_locate {location : Location} (located : tree.locate path = .ok location) :
    tree.remove path =
      match tree.node? location with
      | none => .error .notFound
      | some .directory => .error .isDirectory
      | some _ => .ok (tree.erase location) := by
  rw [remove, located]
  rfl

theorem remove_of_error {e : FileError} (lost : tree.locate path = .error e) :
    tree.remove path = .error e := by
  rw [remove, lost]
  rfl

/-- A path can be removed exactly if it is that of a regular file or of the device, which then goes. -/
theorem remove_cases (tree : FileTree) (path : FilePath) :
    (∃ location, tree.locate path = .ok location ∧ tree.node? location ≠ some .directory ∧
      (location ≠ deviceLocation → tree.isFile path = true) ∧
      tree.remove path = .ok (tree.erase location)) ∨
    (tree.isFile path = false ∧ ∃ e, tree.remove path = .error e) := by
  cases located : tree.locate path with
  | error e =>
    exact .inr ⟨by rw [isFile, find_of_error located], e, remove_of_error located⟩
  | ok location =>
    have found := find_of_locate located
    have removed := remove_of_locate located
    cases there : tree.node? location with
    | none =>
      rw [there] at found removed
      exact .inr ⟨by rw [isFile, found], _, removed⟩
    | some node =>
      rw [there] at found removed
      cases node with
      | file content =>
        exact .inl ⟨location, rfl, by simp [there], fun _ => by rw [isFile, found], removed⟩
      | directory => exact .inr ⟨by rw [isFile, found], _, removed⟩
      | fullDevice =>
        have here := tree.device_location location there
        exact .inl ⟨location, rfl, by simp [there], fun elsewhere => absurd here elsewhere, removed⟩

theorem exists_content_of_isFile {location : Location} (located : tree.locate path = .ok location)
    (file : tree.isFile path = true) : ∃ content, tree.node? location = some (.file content) := by
  rw [isFile, find_of_locate located] at file
  cases there : tree.node? location with
  | none =>
    rw [there] at file
    cases file
  | some node =>
    rw [there] at file
    cases node with
    | file content => exact ⟨content, rfl⟩
    | directory => cases file
    | fullDevice => cases file

theorem SameAt.isFile_eq {other : FileTree} (same : tree.SameAt other path) :
    other.isFile path = tree.isFile path := by
  have find_eq : other.find path = tree.find path := by
    cases located : tree.locate path with
    | error e => rw [find_of_error located, find_of_error (same.locate_eq.trans located)]
    | ok location =>
      rw [find_of_locate located, find_of_locate (same.locate_eq.trans located),
        same.node?_eq location located]
  rw [isFile, isFile, find_eq]

end Located

end FileTree

namespace Cleanup

theorem removeOne_congr {tree other : FileTree} {path : FilePath} (same : tree.SameAt other path) :
    (removeOne other path).2 = (removeOne tree path).2 := by
  unfold removeOne
  cases located : tree.locate path with
  | error e =>
    rw [FileTree.remove_of_error located,
      FileTree.remove_of_error (same.locate_eq.trans located)]
    cases e <;> rfl
  | ok location =>
    rw [FileTree.remove_of_locate located,
      FileTree.remove_of_locate (same.locate_eq.trans located), same.node?_eq location located]
    cases tree.node? location with
    | none => rfl
    | some node => cases node <;> rfl

theorem removed?_removeOne {tree : FileTree} {path : FilePath}
    (no_device : tree.locate path ≠ .ok deviceLocation) :
    (removeOne tree path).2.removed? = if tree.isFile path then some path else none := by
  rcases tree.remove_cases path with ⟨location, located, -, file, removed⟩ | ⟨file, e, failed⟩
  · rw [removeOne, removed, file fun here => no_device (here ▸ located)]
    rfl
  · rw [removeOne, failed, file]
    cases e <;> rfl

theorem error?_removeOne (tree : FileTree) (path : FilePath) :
    (removeOne tree path).2.error? = tree.removalError? path := by
  unfold removeOne FileTree.removalError?
  cases tree.remove path with
  | ok next => rfl
  | error e => cases e <;> rfl

/-- What one removal does to the tree. -/
theorem removeOne_tree (tree : FileTree) (path : FilePath) :
    (∃ location, tree.locate path = .ok location ∧ tree.node? location ≠ some .directory ∧
      (location ≠ deviceLocation → tree.isFile path = true) ∧
      (removeOne tree path).1 = tree.erase location) ∨
    (tree.isFile path = false ∧ (removeOne tree path).1 = tree) := by
  rcases tree.remove_cases path with ⟨location, located, keeps, file, removed⟩ | ⟨file, e, failed⟩
  · exact .inl ⟨location, located, keeps, file, by rw [removeOne, removed]⟩
  · refine .inr ⟨file, ?_⟩
    rw [removeOne, failed]
    cases e <;> rfl

/-- One removal takes away what the path leads to if that is a file, and nothing else. -/
theorem without_removeOne {tree : FileTree} {path : FilePath}
    (no_device : tree.locate path ≠ .ok deviceLocation) :
    tree.Without (removeOne tree path).1 ([path].filter tree.isFile) := by
  rcases removeOne_tree tree path with ⟨location, located, keeps, file, next⟩ | ⟨file, next⟩
  · have file : tree.isFile path = true := file fun here => no_device (here ▸ located)
    have one : [path].filter tree.isFile = [path] := by simp [file]
    rw [next, one]
    refine ⟨?_, ?_, tree.workingDirectory_erase location⟩
    · intro other mem place there
      obtain rfl := List.mem_singleton.mp mem
      obtain rfl := Except.ok.inj (located.symm.trans there)
      rw [FileTree.node?_erase keeps, if_pos rfl]
    · intro place apart
      have elsewhere : place ≠ location := by
        rintro rfl
        exact apart path List.mem_cons_self located
      rw [FileTree.node?_erase keeps, if_neg elsewhere]
  · have none : [path].filter tree.isFile = [] := by simp [file]
    rw [next, none]
    exact .refl tree

theorem keepsDirectories_removeOne (tree : FileTree) (path : FilePath) :
    tree.KeepsDirectories (removeOne tree path).1 := by
  rcases removeOne_tree tree path with ⟨gone, -, keeps, -, next⟩ | ⟨-, next⟩
  · rw [next]
    exact FileTree.keepsDirectories_erase keeps
  · rw [next]
    exact .refl tree

/-- A directory stands where it stood before a removal. -/
theorem directoryAt_removeOne {tree : FileTree} {dir : FilePath} {location : Location}
    (at_location : tree.DirectoryAt dir location) (path : FilePath) :
    (removeOne tree path).1.DirectoryAt dir location :=
  (keepsDirectories_removeOne tree path).directoryAt at_location

/-- A removal does not change what another name in a directory leads to. -/
theorem sameAt_join {tree : FileTree} {dir path : FilePath} {location : Location} {name : String}
    (at_location : tree.DirectoryAt dir location) (plain : PlainName name)
    (apart : tree.locate path ≠ .ok (location ++ [FileName.ofString name])) :
    tree.SameAt (removeOne tree path).1 (dir / name) := by
  refine ⟨?_, ?_⟩
  · rw [(directoryAt_removeOne at_location path).locate_join plain, at_location.locate_join plain]
  · intro place located
    rw [at_location.locate_join plain] at located
    obtain rfl := FileTree.eq_of_childLocation located
    rcases removeOne_tree tree path with ⟨gone, located_path, keeps, -, next⟩ | ⟨-, next⟩
    · have elsewhere : location ++ [FileName.ofString name] ≠ gone := by
        rintro rfl
        exact apart located_path
      rw [next, FileTree.node?_erase keeps, if_neg elsewhere]
    · rw [next]

/-- No removal changes what a later path leads to. -/
def Undisturbed : FileTree → List FilePath → Prop
  | _, [] => True
  | tree, path :: rest =>
    (∀ other ∈ rest, tree.SameAt (removeOne tree path).1 other) ∧
      Undisturbed (removeOne tree path).1 rest

/-- Undisturbed removals have the outcomes that they have on the first tree, one by one. -/
theorem removeAll_outcomes {tree : FileTree} {paths : List FilePath} (h : Undisturbed tree paths) :
    (removeAll paths tree).2 = paths.map fun path => (removeOne tree path).2 := by
  induction paths generalizing tree with
  | nil => rfl
  | cons path rest ih =>
    obtain ⟨same, later⟩ := h
    have outcomes := ih later
    rw [removeAll, List.map_cons]
    refine congrArg (_ :: ·) (outcomes.trans ?_)
    exact List.map_congr_left fun other mem => removeOne_congr (same other mem)

theorem removed_removeAll {tree : FileTree} {paths : List FilePath} (h : Undisturbed tree paths)
    (no_device : ∀ path ∈ paths, tree.locate path ≠ .ok deviceLocation) :
    (removeAll paths tree).2.filterMap CleanupOutcome.removed? = paths.filter tree.isFile := by
  rw [removeAll_outcomes h, List.filterMap_map, ← List.filterMap_eq_filter]
  exact List.filterMap_congr fun path mem => removed?_removeOne (no_device path mem)

theorem errors_removeAll {tree : FileTree} {paths : List FilePath} (h : Undisturbed tree paths) :
    (removeAll paths tree).2.filterMap CleanupOutcome.error? = paths.filterMap tree.removalError? := by
  rw [removeAll_outcomes h, List.filterMap_map]
  exact congrArg (List.filterMap · paths) (funext fun path => error?_removeOne tree path)

/-- Undisturbed removals take away the files among the paths, and nothing else. -/
theorem without_removeAll {tree : FileTree} {paths : List FilePath} (h : Undisturbed tree paths)
    (no_device : ∀ path ∈ paths, tree.locate path ≠ .ok deviceLocation) :
    tree.Without (removeAll paths tree).1 (paths.filter tree.isFile) := by
  induction paths generalizing tree with
  | nil => exact .refl tree
  | cons path rest ih =>
    obtain ⟨same, later⟩ := h
    have files : rest.filter (removeOne tree path).1.isFile = rest.filter tree.isFile :=
      List.filter_congr fun other mem => (same other mem).isFile_eq
    obtain ⟨first_no_device, rest_no_device⟩ := List.forall_mem_cons.mp no_device
    have rest_gone := ih later fun other mem => (same other mem).locate_eq ▸ rest_no_device other mem
    rw [files] at rest_gone
    have split : (path :: rest).filter tree.isFile =
        [path].filter tree.isFile ++ rest.filter tree.isFile := by
      rw [← List.filter_append]
      rfl
    rw [split]
    exact (without_removeOne first_no_device).trans rest_gone
      fun other mem => (same other (List.mem_filter.mp mem).1).locate_eq

/-- Removing distinct names from one directory is undisturbed. -/
theorem undisturbed_names {tree : FileTree} {dir : FilePath} {location : Location}
    (at_location : tree.DirectoryAt dir location) {names : List String}
    (plain : ∀ name ∈ names, PlainName name) (nodup : names.Nodup) :
    Undisturbed tree (names.map (dir / ·)) := by
  induction names generalizing tree with
  | nil => trivial
  | cons name rest ih =>
    obtain ⟨new, nodup⟩ := List.nodup_cons.mp nodup
    have plain_rest : ∀ other ∈ rest, PlainName other := fun other mem =>
      plain other (List.mem_cons_of_mem _ mem)
    refine ⟨?_, ih (directoryAt_removeOne at_location _) plain_rest nodup⟩
    intro path mem
    obtain ⟨other, mem_other, rfl⟩ := List.mem_map.mp mem
    refine sameAt_join at_location (plain_rest other mem_other) ?_
    intro located
    rw [at_location.locate_join (plain name List.mem_cons_self)] at located
    have same := FileTree.eq_of_childLocation located
    have same_name : other = name := FileName.eq_of_append_ofString same
    exact new (same_name ▸ mem_other)

/-- So is removing a file, and then distinct names from a directory that lies next to it. -/
theorem undisturbed_below {tree : FileTree} {dir : FilePath} {document folder : String}
    (plain_document : PlainName document) (plain_folder : PlainName folder) {location : Location}
    (at_location : tree.DirectoryAt (dir / folder) location) {names : List String}
    (plain : ∀ name ∈ names, PlainName name) (nodup : names.Nodup) :
    Undisturbed tree (dir / document :: names.map ((dir / folder) / ·)) := by
  refine ⟨?_, undisturbed_names (directoryAt_removeOne at_location _) plain nodup⟩
  intro path mem
  obtain ⟨name, mem_name, rfl⟩ := List.mem_map.mp mem
  refine sameAt_join at_location (plain name mem_name) ?_
  intro located
  obtain ⟨above, walked, eq⟩ := FileTree.exists_of_walk_join plain_document
    (FileTree.walk_of_locate_join plain_document located)
  obtain ⟨above', walked', eq'⟩ := FileTree.exists_of_walk_join plain_folder at_location.walk_eq
  obtain rfl := Except.ok.inj (walked.symm.trans walked')
  have lengths := congrArg List.length (eq' ▸ eq)
  simp at lengths

end Cleanup

end ChunkedChain
