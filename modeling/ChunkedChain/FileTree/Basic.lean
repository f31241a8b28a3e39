import ChunkedChain.FileTree.Path
import Std.Data.ExtTreeMap

/-!
# File trees

A file tree says what is at each location: nothing, a directory, or a file with its content. Links and
special files are left out, but for one device, `/dev/full`, which takes no data. A tree is finite, and
whatever is in it stands in a directory. Trees are equal when they have the same at every location and the
same working directory.
-/

namespace ChunkedChain

/-- Contents are compared byte by byte. -/
local instance (priority := high) contentDecidableEq : DecidableEq ByteArray :=
  ByteArray.instDecidableEq

inductive Node where
  | directory
  | file (content : ByteArray)
  /-- A device that can be opened for writing and has no room for anything. -/
  | fullDevice
  deriving DecidableEq

/-- The only place where a device can be: `/dev/full`. -/
def deviceLocation : Location := [FileName.ofString "dev", FileName.ofString "full"]

/-- The files of a system, and the directory in which relative paths start. -/
structure FileTree where
  nodes : Std.ExtTreeMap Location Node compare
  workingDirectory : Location
  root_directory : nodes[([] : Location)]? = some .directory
  parent_directory : ∀ (dir : Location) (name : FileName),
    nodes[dir ++ [name]]?.isSome → nodes[dir]? = some .directory
  device_location : ∀ location : Location,
    nodes[location]? = some .fullDevice → location = deviceLocation

namespace FileTree

def node? (tree : FileTree) (location : Location) : Option Node := tree.nodes[location]?

theorem node?_ne_fullDevice (tree : FileTree) {location : Location} (h : location ≠ deviceLocation) :
    tree.node? location ≠ some .fullDevice := fun device =>
  h (tree.device_location location device)

/-- Whether `node` may be put under `name` in `dir`: only directories hold anything, a directory does not
give way to anything, and a device stands in its own place only. -/
def CanPut (tree : FileTree) (dir : Location) (name : FileName) (node : Node) : Prop :=
  tree.node? dir = some .directory ∧ tree.node? (dir ++ [name]) ≠ some .directory ∧
    (node = .fullDevice → dir ++ [name] = deviceLocation)

instance (tree : FileTree) (dir : Location) (name : FileName) (node : Node) :
    Decidable (tree.CanPut dir name node) :=
  inferInstanceAs (Decidable (_ ∧ _ ∧ _))

theorem append_singleton_ne {α : Type} (xs : List α) (x : α) : xs ++ [x] ≠ xs := by simp

/-- The tree with `node` under `name` in the directory `dir`, where it may be put there. -/
def put (tree : FileTree) (dir : Location) (name : FileName) (node : Node) : FileTree :=
  if h : tree.CanPut dir name node then
    { nodes := tree.nodes.insert (dir ++ [name]) node
      workingDirectory := tree.workingDirectory
      root_directory := by simpa [Std.ExtTreeMap.getElem?_insert] using tree.root_directory
      parent_directory := by
        intro d n present
        have unchanged : d ≠ dir ++ [name] →
            (tree.nodes.insert (dir ++ [name]) node)[d]? = tree.nodes[d]? := by
          intro hd
          simp [Std.ExtTreeMap.getElem?_insert, Ne.symm hd]
        by_cases same : d ++ [n] = dir ++ [name]
        · obtain ⟨rfl, rfl⟩ : d = dir ∧ n = name := by simpa using same
          rw [unchanged (append_singleton_ne _ _).symm]
          exact h.1
        · have old : tree.nodes[d ++ [n]]?.isSome := by
            simpa [Std.ExtTreeMap.getElem?_insert, Ne.symm same] using present
          have parent := tree.parent_directory d n old
          rw [unchanged, parent]
          rintro rfl
          exact h.2.1 parent
      device_location := by
        intro location there
        rw [Std.ExtTreeMap.getElem?_insert] at there
        split at there
        · rename_i here
          obtain rfl := Std.compare_eq_iff_eq.mp here
          exact h.2.2 (Option.some.inj there)
        · exact tree.device_location location there }
  else tree

/-- The tree without the file or the device at `location`. Directories stay. -/
def erase (tree : FileTree) (location : Location) : FileTree :=
  if h : tree.node? location = some .directory then tree
  else
    { nodes := tree.nodes.erase location
      workingDirectory := tree.workingDirectory
      root_directory := by
        have : location ≠ [] := by
          rintro rfl
          exact h tree.root_directory
        simpa [Std.ExtTreeMap.getElem?_erase, this] using tree.root_directory
      parent_directory := by
        intro d n present
        rw [Std.ExtTreeMap.getElem?_erase] at present ⊢
        split at present
        · simp at present
        · have parent := tree.parent_directory d n present
          rw [if_neg, parent]
          simp only [Std.compare_eq_iff_eq]
          rintro rfl
          exact h parent
      device_location := by
        intro other there
        rw [Std.ExtTreeMap.getElem?_erase] at there
        split at there
        · cases there
        · exact tree.device_location other there }

/-- The tree with `node` at `location`, where it may be put there. -/
def putAt (tree : FileTree) (location : Location) (node : Node) : FileTree :=
  match location.getLast? with
  | some name => tree.put location.dropLast name node
  | none => tree

/-- The tree without what is at `location` and below it. The root stays. -/
def eraseAll (tree : FileTree) (location : Location) : FileTree :=
  if h : location = [] then tree
  else
    { nodes := tree.nodes.filter fun other _ => !location.isPrefixOf other
      workingDirectory := tree.workingDirectory
      root_directory := by
        have : location.isPrefixOf ([] : Location) = false := by
          cases location with
          | nil => exact absurd rfl h
          | cons _ _ => rfl
        simp [Std.ExtTreeMap.getElem?_filter, tree.root_directory, this]
      parent_directory := by
        intro d n present
        rw [Std.ExtTreeMap.getElem?_filter'] at present ⊢
        obtain ⟨node, kept⟩ := Option.isSome_iff_exists.1 present
        rw [Option.filter_eq_some_iff] at kept
        have parent := tree.parent_directory d n (by simp [kept.1])
        have apart : location.isPrefixOf d = false := by
          cases hd : location.isPrefixOf d with
          | false => rfl
          | true =>
            have above : location <+: d ++ [n] :=
              ( List.isPrefixOf_iff_prefix.1 hd).trans (List.prefix_append d [n])
            simp [ List.isPrefixOf_iff_prefix.2 above] at kept
        simp [parent, apart]
      device_location := by
        intro other there
        rw [Std.ExtTreeMap.getElem?_filter', Option.filter_eq_some_iff] at there
        exact tree.device_location other there.1 }

/-- The locations below `dir`, each with what is there, in order. -/
def below (tree : FileTree) (dir : Location) : List (Location × Node) :=
  tree.nodes.toList.filterMap fun (location, node) =>
    match dir.isPrefixOf? location with
    | some [] => none
    | some rest => some (rest, node)
    | none => none

/-- The names in a directory, in byte order. -/
def names (tree : FileTree) (dir : Location) : List FileName :=
  (tree.below dir).filterMap fun (rest, _) =>
    match rest with
    | [name] => some name
    | _ => none

/-- The tree that holds only its root. -/
def empty : FileTree where
  nodes := (∅ : Std.ExtTreeMap Location Node compare).insert [] .directory
  workingDirectory := []
  root_directory := by simp
  parent_directory := by
    intro d n present
    simp at present
  device_location := by
    intro location there
    rw [Std.ExtTreeMap.getElem?_insert] at there
    split at there
    · cases there
    · simp at there

end FileTree

end ChunkedChain
