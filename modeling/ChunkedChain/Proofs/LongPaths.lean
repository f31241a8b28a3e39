import ChunkedChain.Proofs.Making

/-!
# Paths that are too long

The system refuses a path that takes too many bytes, and a name that does, whatever is there. A directory
may be written with any number of slashes after it, so a file that is in reach by one path to its directory
may be out of reach by another one.
-/

namespace ChunkedChain

namespace FilePath

/-- What stands before a relative name that is seen from a directory. -/
def front (dir : FilePath) : String :=
  if dir.text.toList.getLast?.all (· = '/') then dir.text else dir.text ++ "/"

theorem text_join (dir : FilePath) {name : String} (plain : PlainName name) :
    (dir / name).text = dir.front ++ name := by
  have relative : name.toList.head? ≠ some '/' := fun h => plain.no_slash (List.mem_of_head? h)
  change (join dir name).text = _
  rw [join, if_neg relative, front]
  split <;> rfl

theorem mem_front {dir : FilePath} {c : Char} (mem : c ∈ dir.front.toList) :
    c ∈ dir.text.toList ∨ c = '/' := by
  rw [front] at mem
  split at mem
  · exact .inl mem
  · simpa using mem

/-- A name takes its own bytes, and one more at most. -/
theorem utf8ByteSize_join (dir : FilePath) {name : String} (plain : PlainName name) :
    dir.text.utf8ByteSize + name.utf8ByteSize ≤ (dir / name).text.utf8ByteSize ∧
      (dir / name).text.utf8ByteSize ≤ dir.text.utf8ByteSize + name.utf8ByteSize + 1 := by
  have slash : "/".utf8ByteSize = 1 := by decide
  rw [dir.text_join plain, front]
  split <;> simp only [String.utf8ByteSize_append] <;> omega

theorem no_nul_join {dir : FilePath} {name : String} (plain : PlainName name) :
    '\x00' ∉ (dir / name).text.toList ↔ '\x00' ∉ dir.text.toList ∧ '\x00' ∉ name.toList := by
  rw [dir.text_join plain, String.toList_append, List.mem_append, not_or]
  refine and_congr_left fun _ => not_congr ⟨fun mem => ?_, fun mem => ?_⟩
  · exact (mem_front mem).resolve_right (by decide)
  · rw [front]
    split
    · exact mem
    · rw [String.toList_append]
      exact List.mem_append_left _ mem

theorem refusal?_eq_none {path : FilePath} :
    path.refusal? = none ↔ '\x00' ∉ path.text.toList ∧ path.text.utf8ByteSize ≤ maxLength := by
  rw [refusal?, holdsNul, isTooLong]
  by_cases nul : '\x00' ∈ path.text.toList
  · simp [nul]
  · simp [nul]

def withSlashes (path : FilePath) (count : Nat) : FilePath :=
  ⟨path.text ++ String.ofList (List.replicate count '/')⟩

theorem toList_withSlashes (path : FilePath) (count : Nat) :
    (path.withSlashes count).text.toList = path.text.toList ++ List.replicate count '/' := by
  simp [withSlashes]

theorem utf8ByteSize_withSlashes (path : FilePath) (count : Nat) :
    (path.withSlashes count).text.utf8ByteSize = path.text.utf8ByteSize + count := by
  rw [withSlashes, String.utf8ByteSize_append]
  congr 1
  induction count with
  | zero => rfl
  | succ count ih =>
    have one : (String.ofList ['/']).utf8ByteSize = 1 := by decide
    rw [List.replicate_succ', String.ofList_append, String.utf8ByteSize_append, ih, one]

theorem components_withSlashes (path : FilePath) (count : Nat) :
    (path.withSlashes count).components = path.components := by
  rw [components_eq, components_eq, toList_withSlashes]
  induction count with
  | zero => rw [List.replicate_zero, List.append_nil]
  | succ count ih =>
    rw [List.replicate_succ', ← List.append_assoc, steps_append, steps_nil, List.append_nil, ih]

theorem isAbsolute_withSlashes {path : FilePath} (full : path.text.toList ≠ []) (count : Nat) :
    (path.withSlashes count).isAbsolute = path.isAbsolute := by
  obtain ⟨c, rest, text⟩ := List.exists_cons_of_ne_nil full
  rw [isAbsolute, isAbsolute, toList_withSlashes, text]
  rfl

end FilePath

namespace FileTree

variable {tree : FileTree} {dir : FilePath} {location place : Location} {name : String}

/-- The system takes no path as long as that of this name in the directory, or no name as long. -/
def OutOfReach (dir : FilePath) (name : String) : Prop :=
  FilePath.maxLength < (dir / name).text.utf8ByteSize ∨ maxNameLength < (FileName.ofString name).length

theorem childLocation_eq_ok :
    childLocation dir location name = .ok place ↔
      '\x00' ∉ (dir / name).text.toList ∧ ¬ OutOfReach dir name ∧
        place = location ++ [FileName.ofString name] := by
  rw [childLocation, OutOfReach, FilePath.holdsNul, FilePath.isTooLong]
  by_cases nul : '\x00' ∈ (dir / name).text.toList
  · simp [nul]
  by_cases long : FilePath.maxLength < (dir / name).text.utf8ByteSize
  · simp [nul, long]
  by_cases long_name : maxNameLength < (FileName.ofString name).length
  · simp [nul, long, long_name]
  · simp [nul, long, long_name, eq_comm]

/-- Without a NUL, only the length of a path or of its last name is in the way. -/
theorem childLocation_of_outOfReach (no_nul : '\x00' ∉ (dir / name).text.toList)
    (far : OutOfReach dir name) : childLocation dir location name = .error .nameTooLong := by
  have clear : (dir / name).holdsNul = false := by
    rw [FilePath.holdsNul]
    simpa using no_nul
  rw [childLocation, clear, if_neg Bool.false_ne_true, FilePath.isTooLong]
  rcases far with long | long
  · rw [if_pos (decide_eq_true long)]
  · rw [if_pos long, ite_self]

/-- Any name that takes no more bytes than one in reach is in reach too. -/
theorem not_outOfReach_of_le {other : String} (plain : PlainName name) (plain_other : PlainName other)
    (near : ¬ OutOfReach dir name) (le : other.utf8ByteSize ≤ name.utf8ByteSize) :
    ¬ OutOfReach dir other := by
  have lengths (text : String) : (FileName.ofString text).length = text.utf8ByteSize := by
    simp [FileName.ofString]
  rw [OutOfReach, dir.text_join plain, String.utf8ByteSize_append, lengths] at near
  rw [OutOfReach, dir.text_join plain_other, String.utf8ByteSize_append, lengths]
  omega

theorem no_nul_of_locate {path : FilePath} (located : tree.locate path = .ok location) :
    '\x00' ∉ path.text.toList := by
  intro mem
  have nul : path.holdsNul = true := by simpa [FilePath.holdsNul] using mem
  rw [locate, nul] at located
  cases located

/-- The path of a directory leads there unless the system refuses it. -/
theorem DirectoryAt.locate_eq (at_location : tree.DirectoryAt dir location)
    (free : dir.refusal? = none) (full : dir.text ≠ "") : tree.locate dir = .ok location := by
  obtain ⟨no_nul, short⟩ := FilePath.refusal?_eq_none.mp free
  have walked : tree.walk (tree.start dir)
      (dir.components ++ if dir.asksDirectory then [.here] else []) = .ok location := by
    rw [walk_append, at_location.walk_eq]
    dsimp only [Except.bind]
    split
    · rw [walk_singleton, step, at_location.directory]
    · rfl
  have clear : dir.holdsNul = false := by simpa [FilePath.holdsNul] using no_nul
  have fits : dir.isTooLong = false := by simpa [FilePath.isTooLong] using short
  have named : dir.text.isEmpty = false := by simpa using full
  rw [locate, clear, fits, named]
  exact walked

/-- Slashes after its path do not move a directory. -/
theorem DirectoryAt.withSlashes (at_location : tree.DirectoryAt dir location)
    (full : dir.text.toList ≠ []) (count : Nat) :
    tree.DirectoryAt (dir.withSlashes count) location where
  walk_eq := by
    rw [start, FilePath.isAbsolute_withSlashes full, FilePath.components_withSlashes]
    exact at_location.walk_eq
  directory := at_location.directory

end FileTree

end ChunkedChain
