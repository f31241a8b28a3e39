import ChunkedChain.Proofs.OwnFiles

/-!
# What runs leave in a tree

Several runs of writes may go through one tree at the same time. No write gets in the way of another one, so
each ends as it would on the tree as it was at first. Afterwards the directories are there that any of the
runs got to, and every file holds what one of the runs put there last.
-/

namespace ChunkedChain

namespace WriteRun

/-- The run with one more write, which ended as `outcome` says. -/
def next (run : WriteRun) (write : FileWrite) (outcome : Except StoreError FilePath) : WriteRun :=
  match outcome with
  | .ok path => { run with done := run.done ++ [(write, path)] }
  | .error e => { run with failure := some (write, e) }

def append (first second : WriteRun) : WriteRun :=
  ⟨first.done ++ second.done, first.failure.or second.failure⟩

/-- How writes go that end as `outcome` says, up to the first that fails. -/
def expected (outcome : FileWrite → Except StoreError FilePath) : List FileWrite → WriteRun
  | [] => {}
  | write :: rest =>
    match outcome write with
    | .ok path => append { done := [(write, path)] } (expected outcome rest)
    | .error e => { failure := some (write, e) }

def tried (run : WriteRun) : List FileWrite :=
  run.done.map Prod.fst ++ (run.failure.map Prod.fst).toList

/-- The run has got to this directory. -/
def Makes (store : Store) (base : Location) (tree : FileTree) (location : Location) (run : WriteRun) :
    Prop :=
  ∃ write ∈ run.tried, write.enters store base tree = true ∧ location ∈ write.directories base

def last? (base location : Location) (run : WriteRun) : Option FileWrite :=
  ((run.done.map Prod.fst).filter fun write => write.location base = location).getLast?

variable (run : WriteRun) (write : FileWrite)

theorem append_empty : run.append {} = run := by
  obtain ⟨done, failure⟩ := run
  simp [append]

theorem empty_append : append {} run = run := rfl

theorem append_assoc (first second third : WriteRun) :
    (first.append second).append third = first.append (second.append third) := by
  simp [append, Option.or_assoc]

variable {run write}

theorem next_ok (unfailed : run.failure = none) (path : FilePath) :
    run.next write (.ok path) = run.append { done := [(write, path)] } := by
  simp [next, append, unfailed]

theorem next_error (unfailed : run.failure = none) (e : StoreError) :
    run.next write (.error e) = run.append { failure := some (write, e) } := by
  simp [next, append, unfailed]

theorem tried_next (unfailed : run.failure = none) (outcome : Except StoreError FilePath) :
    (run.next write outcome).tried = run.tried ++ [write] := by
  cases outcome <;> simp [next, tried, unfailed]

theorem makes_next {store : Store} {base location : Location} {tree : FileTree}
    (unfailed : run.failure = none) {outcome : Except StoreError FilePath} :
    (run.next write outcome).Makes store base tree location ↔
      run.Makes store base tree location ∨
        (write.enters store base tree = true ∧ location ∈ write.directories base) := by
  simp only [Makes, tried_next unfailed, List.mem_append, List.mem_singleton, or_and_right, exists_or,
    exists_eq_left]

/-- A write that was done is the last one to its location. -/
theorem last?_next_self (base : Location) (run : WriteRun) (write : FileWrite) (path : FilePath) :
    (run.next write (.ok path)).last? base (write.location base) = some write := by
  simp [next, last?]

theorem last?_next_of_ne {base location : Location} {outcome : Except StoreError FilePath}
    (elsewhere : ¬ (outcome.isOk = true ∧ location = write.location base)) :
    (run.next write outcome).last? base location = run.last? base location := by
  cases outcome with
  | error e => rfl
  | ok path =>
    have apart : write.location base ≠ location := fun same => elsewhere ⟨rfl, same.symm⟩
    simp [next, last?, apart]

theorem mem_of_last? {base location : Location} (last : run.last? base location = some write) :
    write ∈ run.done.map Prod.fst ∧ write.location base = location := by
  obtain ⟨mem, here⟩ := List.mem_filter.mp (List.mem_of_getLast? last)
  exact ⟨mem, of_decide_eq_true here⟩

/-- No other writes are tried than those that are given. -/
theorem tried_expected_subset (outcome : FileWrite → Except StoreError FilePath)
    (writes : List FileWrite) : (expected outcome writes).tried ⊆ writes := by
  induction writes with
  | nil => exact List.nil_subset _
  | cons write rest ih =>
    rw [expected]
    cases outcome write with
    | ok path => exact List.cons_subset_cons write ih
    | error e => simp [tried]

theorem done_expected_subset (outcome : FileWrite → Except StoreError FilePath)
    (writes : List FileWrite) : (expected outcome writes).done.map Prod.fst ⊆ writes :=
  fun _ mem => tried_expected_subset outcome writes (List.mem_append_left _ mem)

theorem expected_congr {outcome outcome' : FileWrite → Except StoreError FilePath}
    {writes : List FileWrite} (same : ∀ write ∈ writes, outcome' write = outcome write) :
    expected outcome' writes = expected outcome writes := by
  induction writes with
  | nil => rfl
  | cons write rest ih =>
    obtain ⟨first, others⟩ := List.forall_mem_cons.mp same
    rw [expected, expected, first, ih others]

end WriteRun

namespace Store

section Runs

variable (store : Store) (base : Location) (tree : FileTree) (runs : List WriteRun) (location : Location)

/-- One of the runs has got to this directory. -/
def Makes : Prop := ∃ run ∈ runs, run.Makes store base tree location

/-- For one of the runs this was the last write to the location. -/
def LastAt (write : FileWrite) : Prop := ∃ run ∈ runs, run.last? base location = some write

end Runs

section Next

variable {store : Store} {base location : Location} {tree : FileTree} {before later : List WriteRun}
  {run : WriteRun} {write other : FileWrite} {outcome : Except StoreError FilePath}

theorem makes_next (unfailed : run.failure = none) :
    store.Makes base tree (before ++ run.next write outcome :: later) location ↔
      store.Makes base tree (before ++ run :: later) location ∨
        (write.enters store base tree = true ∧ location ∈ write.directories base) := by
  simp only [Makes, List.mem_append, List.mem_cons, or_and_right, exists_or, exists_eq_left,
    WriteRun.makes_next unfailed]
  rw [or_right_comm, ← or_assoc]

theorem lastAt_next_self (path : FilePath) :
    LastAt base (before ++ run.next write (.ok path) :: later) (write.location base) write :=
  ⟨_, List.mem_append_right _ List.mem_cons_self, WriteRun.last?_next_self base run write path⟩

theorem lastAt_next_of_ne (elsewhere : ¬ (outcome.isOk = true ∧ location = write.location base)) :
    LastAt base (before ++ run.next write outcome :: later) location other ↔
      LastAt base (before ++ run :: later) location other := by
  simp only [LastAt, List.mem_append, List.mem_cons, or_and_right, exists_or, exists_eq_left,
    WriteRun.last?_next_of_ne elsewhere]

end Next

/-- The tree `after` is the tree with what these runs have left in it. -/
structure Traces (store : Store) (base : Location) (tree : FileTree) (runs : List WriteRun)
    (after : FileTree) : Prop where
  made : ∀ location ∈ folders base, store.Makes base tree runs location →
    after.node? location = some .directory
  unmade : ∀ location ∈ folders base, ¬ store.Makes base tree runs location →
    after.node? location = tree.node? location
  written : ∀ location ∉ folders base,
    (∃ write, LastAt base runs location write ∧
      after.node? location = some (.file write.content)) ∨
    ((∀ write, ¬ LastAt base runs location write) ∧ after.node? location = tree.node? location)
  workingDirectory : after.workingDirectory = tree.workingDirectory

namespace Traces

variable {store : Store} {base : Location} {tree now after other : FileTree}

theorem start (store : Store) (base : Location) (tree : FileTree) {runs : List WriteRun}
    (fresh : ∀ run ∈ runs, run = {}) : store.Traces base tree runs tree where
  made := by
    rintro location - ⟨run, mem, write, tried, -⟩
    rw [fresh run mem] at tried
    cases tried
  unmade := fun _ _ _ => rfl
  written := by
    intro location _
    refine .inr ⟨?_, rfl⟩
    rintro write ⟨run, mem, last⟩
    rw [fresh run mem] at last
    cases last
  workingDirectory := rfl

/-- One run goes on by one write. -/
theorem next {before later : List WriteRun} {run : WriteRun}
    (traces : store.Traces base tree (before ++ run :: later) now)
    (at_root : now.DirectoryAt store.root base)
    (changes : ChangesOnly base (fun _ => True) tree now) (unfailed : run.failure = none)
    {write : FileWrite} (clear : write.location base ∉ folders base) :
    store.Traces base tree (before ++ run.next write (write.outcome store base tree) :: later)
      (store.perform write now).1 := by
  have performed := performed_perform at_root write
  have same := changes.sameObstacles clear
  have enters : write.enters store base now = write.enters store base tree := same.enters_eq store
  have outcome : write.outcome store base now = write.outcome store base tree := same.outcome_eq store
  refine ⟨?_, ?_, ?_, performed.workingDirectory.trans traces.workingDirectory⟩
  · intro location mem makes
    rw [performed.node?_eq, FileWrite.leaves_of_mem_folders clear mem, enters]
    split
    · rfl
    · rename_i not_here
      exact traces.made location mem (((makes_next unfailed).mp makes).resolve_right not_here)
  · intro location mem unmade
    obtain ⟨unmade, not_here⟩ := not_or.mp (mt (makes_next unfailed).mpr unmade)
    rw [performed.node?_eq, FileWrite.leaves_of_mem_folders clear mem, enters, if_neg not_here]
    exact traces.unmade location mem unmade
  · intro location not_folder
    rw [performed.node?_eq, FileWrite.leaves_of_not_mem_folders not_folder, outcome]
    split
    · rename_i here
      obtain ⟨ok, rfl⟩ := here
      obtain ⟨path, ends⟩ := FileWrite.exists_ok_of_isOk ok
      exact .inl ⟨write, ends ▸ lastAt_next_self path, rfl⟩
    · rename_i elsewhere
      simpa only [lastAt_next_of_ne elsewhere] using traces.written location not_folder

/-- Of two trees with the same traces every one is the other, if runs that write to one file end with the
same content. -/
theorem eq {runs : List WriteRun} (first : store.Traces base tree runs after)
    (second : store.Traces base tree runs other)
    (agree : ∀ location write write', LastAt base runs location write →
      LastAt base runs location write' → write.content = write'.content) : after = other := by
  refine FileTree.ext_node? (fun location => ?_) ?_
  · by_cases mem : location ∈ folders base
    · by_cases makes : store.Makes base tree runs location
      · rw [first.made location mem makes, second.made location mem makes]
      · rw [first.unmade location mem makes, second.unmade location mem makes]
    · rcases first.written location mem with ⟨write, last, there⟩ | ⟨unwritten, there⟩ <;>
        rcases second.written location mem with ⟨write', last', there'⟩ | ⟨unwritten', there'⟩
      · rw [there, there', agree location write write' last last']
      · exact absurd last (unwritten' write)
      · exact absurd last' (unwritten write')
      · rw [there, there']
  · rw [first.workingDirectory, second.workingDirectory]

/-- The same runs once more change nothing: a directory that they get to is there already, and a file gets
the content that it has. -/
theorem again {runs : List WriteRun} (first : store.Traces base tree runs after)
    (second : store.Traces base after runs other)
    (changes : ChangesOnly base (fun _ => True) tree after)
    (clear : ∀ run ∈ runs, ∀ write ∈ run.tried, write.location base ∉ folders base)
    (agree : ∀ location write write', LastAt base runs location write →
      LastAt base runs location write' → write.content = write'.content) : other = after := by
  refine FileTree.ext_node? (fun location => ?_) second.workingDirectory
  by_cases mem : location ∈ folders base
  · by_cases makes : store.Makes base after runs location
    · have made_before : store.Makes base tree runs location := by
        obtain ⟨run, of_runs, write, tried, enters, here⟩ := makes
        rw [(changes.sameObstacles (clear run of_runs write tried)).enters_eq] at enters
        exact ⟨run, of_runs, write, tried, enters, here⟩
      rw [second.made location mem makes, first.made location mem made_before]
    · exact second.unmade location mem makes
  · rcases second.written location mem with ⟨write, last, there⟩ | ⟨-, there⟩
    · rcases first.written location mem with ⟨write', last', there'⟩ | ⟨unwritten, -⟩
      · rw [there, there', agree location write write' last last']
      · exact absurd last (unwritten write)
    · exact there

end Traces

end Store

end ChunkedChain
