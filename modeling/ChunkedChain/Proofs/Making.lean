import ChunkedChain.Proofs.Walking

/-!
# Making directories

Making a directory, or one in a folder that may be missing too, makes these directories at most, and when
it succeeds both are there. What was a directory stays one. Only something that stands there and is no
directory can be in the way, and then nothing is made.
-/

namespace ChunkedChain

namespace FileTree

section Put

variable {tree : FileTree} {dir : Location} {name : FileName} {node : Node}

theorem node?_putAt (can : tree.CanPut dir name node) (other : Location) :
    (tree.putAt (dir ++ [name]) node).node? other =
      if other = dir ++ [name] then some node else tree.node? other := by
  rw [putAt, List.getLast?_concat, List.dropLast_concat]
  change (tree.put dir name node).node? other = _
  rw [put, dif_pos can]
  change (tree.nodes.insert (dir ++ [name]) node)[other]? = _
  rw [Std.ExtTreeMap.getElem?_insert]
  simp only [Std.compare_eq_iff_eq, eq_comm (a := dir ++ [name])]
  rfl

theorem workingDirectory_putAt (tree : FileTree) (location : Location) (node : Node) :
    (tree.putAt location node).workingDirectory = tree.workingDirectory := by
  unfold putAt put
  split
  · split <;> rfl
  · rfl

end Put

/-- What is in the directory of a location is there only if the directory is. -/
theorem directory_of_isSome {tree : FileTree} {dir : Location} {name : FileName}
    (h : (tree.node? (dir ++ [name])).isSome) : tree.node? dir = some .directory :=
  tree.parent_directory dir name h

/-- The tree `made` is the tree with some of these directories made. -/
structure MadeAmong (tree made : FileTree) (locations : List Location) : Prop where
  changed : ∀ location ∈ locations, made.node? location = tree.node? location ∨
    tree.node? location = none ∧ made.node? location = some .directory
  kept : ∀ location, location ∉ locations → made.node? location = tree.node? location
  workingDirectory : made.workingDirectory = tree.workingDirectory

namespace MadeAmong

variable {tree middle made : FileTree} {first second : List Location}

theorem refl (tree : FileTree) (locations : List Location) : tree.MadeAmong tree locations :=
  ⟨fun _ _ => .inl rfl, fun _ _ => rfl, rfl⟩

/-- At every location the tree is as before, or a directory has been made there. -/
theorem node?_cases (among : tree.MadeAmong made first) (location : Location) :
    made.node? location = tree.node? location ∨
      location ∈ first ∧ tree.node? location = none ∧ made.node? location = some .directory := by
  by_cases mem : location ∈ first
  · rcases among.changed location mem with same | new
    · exact .inl same
    · exact .inr ⟨mem, new⟩
  · exact .inl (among.kept location mem)

theorem trans (before : tree.MadeAmong middle first) (after : middle.MadeAmong made second) :
    tree.MadeAmong made (first ++ second) where
  changed := by
    intro location _
    rcases after.node?_cases location with same | ⟨-, missing, new⟩
    · rcases before.node?_cases location with same' | ⟨-, new⟩
      · exact .inl (same.trans same')
      · rw [same]
        exact .inr new
    · rcases before.node?_cases location with same' | ⟨-, -, there⟩
      · exact .inr ⟨same' ▸ missing, new⟩
      · rw [there] at missing
        cases missing
  kept := by
    intro location apart
    rw [List.mem_append, not_or] at apart
    rw [after.kept location apart.2, before.kept location apart.1]
  workingDirectory := after.workingDirectory.trans before.workingDirectory

theorem keepsDirectories (among : tree.MadeAmong made first) : tree.KeepsDirectories made where
  directory := by
    intro location directory
    rcases among.node?_cases location with same | ⟨-, -, there⟩
    · rw [same, directory]
    · exact there
  workingDirectory := among.workingDirectory

end MadeAmong

/-- Makes a directory at a location, unless it is there already. -/
def ensureAt (tree : FileTree) (location : Location) : FileTree × Except FileError Unit :=
  match tree.node? location with
  | none => (tree.putAt location .directory, .ok ())
  | some .directory => (tree, .ok ())
  | some _ => (tree, .error .alreadyExists)

/-- Whether something stands at a location that is no directory. -/
def isBlocked (tree : FileTree) (location : Location) : Bool :=
  match tree.node? location with
  | none | some .directory => false
  | some _ => true

theorem isBlocked_eq_false {tree : FileTree} {location : Location} :
    tree.isBlocked location = false ↔
      tree.node? location = none ∨ tree.node? location = some .directory := by
  unfold isBlocked
  rcases tree.node? location with _ | _ | _ | _ <;> simp

theorem isBlocked_of_directory {tree : FileTree} {location : Location}
    (directory : tree.node? location = some .directory) : tree.isBlocked location = false :=
  isBlocked_eq_false.mpr (.inr directory)

theorem ensureAt_of_blocked {tree : FileTree} {location : Location}
    (blocked : tree.isBlocked location = true) :
    tree.ensureAt location = (tree, .error .alreadyExists) := by
  unfold isBlocked at blocked
  unfold ensureAt
  rcases there : tree.node? location with _ | _ | _ | _ <;> simp [there] at blocked ⊢

theorem ensureAt_of_directory {tree : FileTree} {location : Location}
    (directory : tree.node? location = some .directory) : tree.ensureAt location = (tree, .ok ()) := by
  rw [ensureAt, directory]

theorem workingDirectory_ensureAt (tree : FileTree) (location : Location) :
    (tree.ensureAt location).1.workingDirectory = tree.workingDirectory := by
  unfold ensureAt
  split
  · exact tree.workingDirectory_putAt _ _
  · rfl
  · rfl

section EnsureAt

variable {tree : FileTree} {dir : Location} {name : FileName}
  (free : tree.isBlocked (dir ++ [name]) = false)

include free

theorem ensureAt_ok : (tree.ensureAt (dir ++ [name])).2 = .ok () := by
  rcases isBlocked_eq_false.mp free with missing | there
  · rw [ensureAt, missing]
  · rw [ensureAt, there]

/-- Where nothing is in the way, the directory is there afterwards, and all else is as before. -/
theorem node?_ensureAt (directory : tree.node? dir = some .directory) (other : Location) :
    (tree.ensureAt (dir ++ [name])).1.node? other =
      if other = dir ++ [name] then some .directory else tree.node? other := by
  rcases isBlocked_eq_false.mp free with missing | there
  · have can : tree.CanPut dir name .directory := ⟨directory, by simp [missing], fun same => by cases same⟩
    rw [ensureAt, missing]
    exact node?_putAt can other
  · rw [ensureAt_of_directory there]
    split
    · rename_i same
      rw [same, there]
    · rfl

end EnsureAt

section EnsureAt

variable (tree : FileTree) {dir : Location} (directory : tree.node? dir = some .directory)
  (name : FileName)

include directory

theorem madeAmong_ensureAt :
    tree.MadeAmong (tree.ensureAt (dir ++ [name])).1 [dir ++ [name]] := by
  cases blocked : tree.isBlocked (dir ++ [name]) with
  | true =>
    rw [ensureAt_of_blocked blocked]
    exact .refl tree _
  | false =>
    refine ⟨?_, ?_, tree.workingDirectory_ensureAt _⟩
    · intro location mem
      obtain rfl := List.mem_singleton.mp mem
      rw [node?_ensureAt blocked directory, if_pos rfl]
      rcases isBlocked_eq_false.mp blocked with missing | there
      · exact .inr ⟨missing, rfl⟩
      · exact .inl there.symm
    · intro location apart
      rw [node?_ensureAt blocked directory, if_neg fun same => apart (List.mem_singleton.mpr same)]

theorem directory_ensureAt (ok : (tree.ensureAt (dir ++ [name])).2 = .ok ()) :
    (tree.ensureAt (dir ++ [name])).1.node? (dir ++ [name]) = some .directory := by
  cases blocked : tree.isBlocked (dir ++ [name]) with
  | true =>
    rw [ensureAt_of_blocked blocked] at ok
    cases ok
  | false => rw [node?_ensureAt blocked directory, if_pos rfl]

end EnsureAt

section Ensure

variable {tree : FileTree} {start location : Location}

theorem ensureDirectory_eq {steps : List Component} (walked : tree.walk start steps = .ok location) :
    tree.ensureDirectory start steps = tree.ensureAt location := by
  unfold ensureDirectory makeDirectory leadsToDirectory ensureAt
  rw [walked]
  cases there : tree.node? location with
  | none => simp [bind, Except.bind, there]
  | some node => cases node <;> simp [bind, Except.bind, there]

/-- Where the way to it is there, a directory is made on its own. -/
theorem ensureDirectories_eq {last : Component} {before : List Component}
    (walked : tree.walk start (last :: before).reverse = .ok location) :
    tree.ensureDirectories start (last :: before) = tree.ensureAt location := by
  have found : tree.makeDirectory start (last :: before).reverse ≠ .error .notFound := by
    unfold makeDirectory
    rw [walked]
    simp only [bind, Except.bind]
    split <;> simp
  rw [ensureDirectories, ← ensureDirectory_eq walked]
  split
  · exact absurd ‹_› found
  · rfl

section Lost

variable {last : Component} {before : List Component} {e : FileError}
  (lost : tree.walk start (last :: before).reverse = .error e)

include lost

theorem makeDirectory_of_error : tree.makeDirectory start (last :: before).reverse = .error e := by
  rw [makeDirectory, lost]
  rfl

/-- Where the way is missing, it is made first. -/
theorem ensureDirectories_of_missing (missing : e = .notFound) {made : FileTree}
    (way : tree.ensureDirectories start before = (made, .ok ())) :
    tree.ensureDirectories start (last :: before) =
      made.ensureDirectory start (last :: before).reverse := by
  subst missing
  rw [ensureDirectories, makeDirectory_of_error lost]
  simp only [way]

theorem ensureDirectories_of_blocked (blocked : e ≠ .notFound) :
    tree.ensureDirectories start (last :: before) = (tree, .error e) := by
  have refused : tree.ensureDirectory start (last :: before).reverse = (tree, .error e) := by
    rw [ensureDirectory, makeDirectory_of_error lost, leadsToDirectory, lost]
    simp
  rw [ensureDirectories, makeDirectory_of_error lost]
  cases e <;> first | exact absurd rfl blocked | exact refused

end Lost

end Ensure

end FileTree

/-- Why the system refuses a path before anything is looked up, if it does. -/
def FilePath.refusal? (path : FilePath) : Option FileError :=
  if path.holdsNul then some .nulInName
  else if path.isTooLong then some .nameTooLong
  else none

namespace FileTree

section Create

variable {tree : FileTree} {dir : FilePath} {location : Location} {folder inner : String}

theorem createDirectories_join (plain : PlainName folder) :
    tree.createDirectories (dir / folder) =
      (dir / folder).refusal?.elim
        (tree.ensureDirectories (tree.start dir)
          (.name (FileName.ofString folder) :: dir.components.reverse))
        fun e => (tree, .error e) := by
  have way : tree.createDirectories (dir / folder) =
      if (dir / folder).holdsNul then (tree, .error .nulInName)
      else if (dir / folder).isTooLong then (tree, .error .nameTooLong)
      else tree.ensureDirectories (tree.start dir)
        (.name (FileName.ofString folder) :: dir.components.reverse) := by
    rw [createDirectories, FilePath.components_join dir plain, tree.start_join plain,
      List.reverse_append]
    rfl
  rw [way, FilePath.refusal?]
  split
  · rfl
  split <;> rfl

/-- The directory of a short name is right below. -/
theorem DirectoryAt.child (at_location : tree.DirectoryAt dir location) (plain : PlainName folder)
    (short : (FileName.ofString folder).length ≤ maxNameLength)
    (there : tree.node? (location ++ [FileName.ofString folder]) = some .directory) :
    tree.DirectoryAt (dir / folder) (location ++ [FileName.ofString folder]) where
  walk_eq := by
    rw [tree.walk_join plain, at_location.walk_eq]
    simp only [Except.bind, step_name at_location.directory, if_neg (Nat.not_lt.mpr short)]
  directory := there

theorem walk_child (at_location : tree.DirectoryAt dir location)
    (short : (FileName.ofString folder).length ≤ maxNameLength) :
    tree.walk (tree.start dir)
        (.name (FileName.ofString folder) :: dir.components.reverse : List Component).reverse =
      .ok (location ++ [FileName.ofString folder]) := by
  rw [List.reverse_cons, List.reverse_reverse, walk_append, at_location.walk_eq]
  simp only [Except.bind, walk_singleton, step_name at_location.directory,
    if_neg (Nat.not_lt.mpr short)]

/-- Making a directory in another one. -/
theorem createDirectories_child_eq (at_location : tree.DirectoryAt dir location)
    (plain : PlainName folder) (short : (FileName.ofString folder).length ≤ maxNameLength) :
    tree.createDirectories (dir / folder) =
      (dir / folder).refusal?.elim (tree.ensureAt (location ++ [FileName.ofString folder]))
        fun e => (tree, .error e) := by
  rw [createDirectories_join plain, ensureDirectories_eq (walk_child at_location short)]

/-- Making a directory in another one: nothing else is made, and on success it is there. -/
theorem createDirectories_child (at_location : tree.DirectoryAt dir location) (plain : PlainName folder)
    (short : (FileName.ofString folder).length ≤ maxNameLength) {made : FileTree}
    {outcome : Except FileError Unit}
    (h : tree.createDirectories (dir / folder) = (made, outcome)) :
    tree.MadeAmong made [location ++ [FileName.ofString folder]] ∧
      (outcome = .ok () → made.node? (location ++ [FileName.ofString folder]) = some .directory) := by
  rw [createDirectories_child_eq at_location plain short] at h
  cases refused : (dir / folder).refusal? with
  | some e =>
    rw [refused] at h
    cases h
    exact ⟨.refl tree _, fun ok => by cases ok⟩
  | none =>
    rw [refused, Option.elim_none] at h
    have among := tree.madeAmong_ensureAt at_location.directory (FileName.ofString folder)
    have there := tree.directory_ensureAt at_location.directory (FileName.ofString folder)
    rw [h] at among there
    exact ⟨among, there⟩

section Grandchild

variable (at_location : tree.DirectoryAt dir location) (plain : PlainName folder)
  (short : (FileName.ofString folder).length ≤ maxNameLength)

include at_location plain short

/-- The steps into a folder lead on from it. -/
theorem walk_grandchild :
    tree.walk (tree.start dir)
        (.name (FileName.ofString inner) :: (dir / folder).components.reverse : List Component).reverse =
      tree.step (location ++ [FileName.ofString folder]) (.name (FileName.ofString inner)) := by
  have before := walk_child at_location short
  rw [List.reverse_cons, List.reverse_reverse] at before
  rw [List.reverse_cons, List.reverse_reverse, FilePath.components_join dir plain, walk_append, before]
  simp only [Except.bind, walk_singleton]

/-- A folder that is missing is made, and then the directory in it. -/
theorem ensureDirectories_grandchild_of_none
    (short_inner : (FileName.ofString inner).length ≤ maxNameLength)
    (there : tree.node? (location ++ [FileName.ofString folder]) = none) :
    tree.ensureDirectories (tree.start dir)
        (.name (FileName.ofString inner) :: (dir / folder).components.reverse) =
      (tree.ensureAt (location ++ [FileName.ofString folder])).1.ensureAt
        (location ++ [FileName.ofString folder] ++ [FileName.ofString inner]) := by
  have free : tree.isBlocked (location ++ [FileName.ofString folder]) = false :=
    isBlocked_eq_false.mpr (.inl there)
  have missing : tree.walk (tree.start dir)
      (.name (FileName.ofString inner) :: (dir / folder).components.reverse : List Component).reverse =
        .error .notFound := by
    rw [walk_grandchild at_location plain short, step, there]
  have way : tree.ensureDirectories (tree.start dir) (dir / folder).components.reverse =
      ((tree.ensureAt (location ++ [FileName.ofString folder])).1, .ok ()) := by
    rw [FilePath.components_join dir plain, List.reverse_append]
    exact (ensureDirectories_eq (walk_child at_location short)).trans (Prod.ext rfl (ensureAt_ok free))
  have keeps := (tree.madeAmong_ensureAt at_location.directory
    (FileName.ofString folder)).keepsDirectories
  have at_folder := (keeps.directoryAt at_location).child plain short
    (tree.directory_ensureAt at_location.directory (FileName.ofString folder) (ensureAt_ok free))
  have walked := walk_child at_folder short_inner
  rw [start_join _ plain, keeps.start_eq] at walked
  rw [ensureDirectories_of_missing missing rfl way, ensureDirectory_eq walked]

/-- Making a directory in a folder of another one: the folder is made first if it is missing. -/
theorem createDirectories_grandchild_eq (plain_inner : PlainName inner)
    (short_inner : (FileName.ofString inner).length ≤ maxNameLength) :
    tree.createDirectories (dir / folder / inner) =
      (dir / folder / inner).refusal?.elim
        (if tree.isBlocked (location ++ [FileName.ofString folder]) then (tree, .error .notDirectory)
        else (tree.ensureAt (location ++ [FileName.ofString folder])).1.ensureAt
          (location ++ [FileName.ofString folder] ++ [FileName.ofString inner]))
        fun e => (tree, .error e) := by
  rw [createDirectories_join plain_inner, tree.start_join plain]
  refine congrArg (Option.elim _ · _) ?_
  rcases there : tree.node? (location ++ [FileName.ofString folder]) with _ | _ | _ | _
  case none =>
    have free := isBlocked_eq_false.mpr (.inl there)
    rw [ensureDirectories_grandchild_of_none at_location plain short short_inner there, free]
    rfl
  case some.directory =>
    have at_folder := at_location.child plain short there
    have walked := walk_child at_folder short_inner
    rw [tree.start_join plain] at walked
    rw [ensureDirectories_eq walked, isBlocked_of_directory there, ensureAt_of_directory there]
    rfl
  all_goals
    -- A file or a device in the place of the folder ends the walk.
    have stopped : tree.walk (tree.start dir)
        (.name (FileName.ofString inner) :: (dir / folder).components.reverse : List Component).reverse =
          .error .notDirectory := by
      rw [walk_grandchild at_location plain short, step, there]
    rw [ensureDirectories_of_blocked stopped (by decide), isBlocked, there]
    rfl

/-- Making a directory in a folder of another one: nothing but these two is made, and on success both are
there. -/
theorem createDirectories_grandchild (plain_inner : PlainName inner)
    (short_inner : (FileName.ofString inner).length ≤ maxNameLength)
    {made : FileTree} {outcome : Except FileError Unit}
    (h : tree.createDirectories (dir / folder / inner) = (made, outcome)) :
    tree.MadeAmong made [location ++ [FileName.ofString folder],
        location ++ [FileName.ofString folder] ++ [FileName.ofString inner]] ∧
      (outcome = .ok () → made.node? (location ++ [FileName.ofString folder]) = some .directory ∧
        made.node? (location ++ [FileName.ofString folder] ++ [FileName.ofString inner]) =
          some .directory) := by
  rw [createDirectories_grandchild_eq at_location plain short plain_inner short_inner] at h
  cases refused : (dir / folder / inner).refusal? with
  | some e =>
    rw [refused] at h
    cases h
    exact ⟨.refl tree _, fun ok => by cases ok⟩
  | none =>
  rw [refused, Option.elim_none] at h
  split at h
  · cases h
    exact ⟨.refl tree _, fun ok => by cases ok⟩
  · rename_i free
    rw [Bool.not_eq_true] at free
    have among := tree.madeAmong_ensureAt at_location.directory (FileName.ofString folder)
    have folder_there := tree.directory_ensureAt at_location.directory (FileName.ofString folder)
      (ensureAt_ok free)
    have among_inner := madeAmong_ensureAt _ folder_there (FileName.ofString inner)
    have inner_there := directory_ensureAt _ folder_there (FileName.ofString inner)
    rw [h] at among_inner inner_there
    refine ⟨among.trans among_inner, fun ok => ⟨?_, inner_there ok⟩⟩
    exact among_inner.keepsDirectories.directory _ folder_there

end Grandchild

end Create

end FileTree

end ChunkedChain
