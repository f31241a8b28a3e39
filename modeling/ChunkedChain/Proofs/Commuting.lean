import ChunkedChain.Proofs.Lockstep

/-!
# Operations on different chains and machines

Writing the files of a chain and cleaning up after it, on different chains or machines, can be done in
either order: each of the two gets to its own files only, so the other one runs in lockstep with its run on
the tree as it was before.
-/

namespace ChunkedChain

/-- What is done to the files of one chain on one machine. -/
inductive Operation where
  | create (chain : Chain)
  | clean (cleanup : Cleanup)

inductive Answer where
  | created (result : Except StoreError (List FilePath))
  | cleaned (report : CleanupReport)

namespace Operation

def chain : Operation → UInt64
  | .create chain => chain.id
  | .clean cleanup => cleanup.chain

def machine : Operation → String
  | .create chain => chain.target.machine
  | .clean cleanup => cleanup.machine

def run (store : Store) (tree : FileTree) : Operation → FileTree × Answer
  | .create chain =>
    let result := store.createChainFiles chain tree
    (result.1, .created result.2)
  | .clean cleanup =>
    let result := cleanup.report store tree
    (result.1, .cleaned result.2)

theorem run_create (store : Store) (tree : FileTree) (chain : Chain) :
    (create chain).run store tree =
      ((store.createChainFiles chain tree).1, .created (store.createChainFiles chain tree).2) := rfl

theorem run_clean (store : Store) (tree : FileTree) (cleanup : Cleanup) :
    (clean cleanup).run store tree =
      ((cleanup.report store tree).1, .cleaned (cleanup.report store tree).2) := rfl

/-- Where the files of the chain on the machine stand. -/
def Own (base : Location) (operation : Operation) : Location → Prop :=
  Store.OwnFile base operation.chain operation.machine

def ShortNames (operation : Operation) : Prop :=
  ∀ number, (Chunk.fileNameOf operation.chain operation.machine number).utf8ByteSize ≤
    FileTree.maxNameLength

/-- It does, unless the machine has a very long name. -/
theorem shortNames_of_machine_le {operation : Operation}
    (short : operation.machine.utf8ByteSize ≤ 207) : operation.ShortNames := fun number =>
  (Chunk.utf8ByteSize_fileNameOf_le operation.chain number operation.machine).trans
    (Nat.add_le_add_right short 48)

variable {store : Store} {base : Location} {tree twin : FileTree}

theorem changesOnly_run (at_root : tree.DirectoryAt store.root base) (operation : Operation) :
    Store.ChangesOnly base (operation.Own base) tree (operation.run store tree).1 := by
  cases operation with
  | create chain =>
    rw [run_create]
    dsimp only
    exact Store.changesOnly_createChainFiles at_root chain
  | clean cleanup =>
    rw [run_clean]
    dsimp only
    exact Cleanup.changesOnly_report at_root cleanup

/-- An operation answers the same in a tree with other files of others. -/
theorem lockstep_run (at_root : tree.DirectoryAt store.root base) {foreign : Location → Prop}
    (changes : Store.ChangesOnly base foreign tree twin) {operation : Operation}
    (own : ∀ location, operation.Own base location → ¬ foreign location)
    (short : operation.ShortNames) :
    (operation.run store twin).2 = (operation.run store tree).2 ∧
      Store.Lockstep base foreign tree twin (operation.run store tree).1
        (operation.run store twin).1 := by
  cases operation with
  | create chain =>
    obtain ⟨results, lockstep⟩ := Store.lockstep_createChainFiles at_root changes chain
    rw [run_create, run_create]
    dsimp only
    exact ⟨congrArg Answer.created results, lockstep⟩
  | clean cleanup =>
    have files : ∀ location, Store.OwnFile base cleanup.chain cleanup.machine location →
        ¬ foreign location := own
    have short_name : (FileName.ofString cleanup.documentName).length ≤ FileTree.maxNameLength :=
      short cleanup.chunk
    obtain ⟨reports, lockstep⟩ := Cleanup.lockstep_report files at_root changes short_name
    rw [run_clean, run_clean]
    dsimp only
    exact ⟨congrArg Answer.cleaned reports, lockstep⟩

/-- Of different chains or machines no file is the same. -/
theorem Own.not_own {first second : Operation}
    (apart : first.chain ≠ second.chain ∨ first.machine ≠ second.machine) {location : Location}
    (own : first.Own base location) : ¬ second.Own base location := by
  intro other
  obtain ⟨chains, machines⟩ := Store.OwnFile.owner_eq own other
  exact apart.elim (fun differ => differ chains) fun differ => differ machines

end Operation

namespace Store

/-- Runs that have changed the same in two trees which differed in each other's files only end in one
tree. -/
theorem Lockstep.eq {base : Location} {own other : Location → Prop}
    {tree first second last final : FileTree} (disjoint : ∀ location, own location → ¬ other location)
    (of_first : Lockstep base own tree first second last)
    (of_second : Lockstep base other tree second first final)
    (after_first : ChangesOnly base other first last)
    (after_second : ChangesOnly base own second final) : last = final := by
  refine FileTree.ext_node? (fun location => ?_) ?_
  · by_cases mem : location ∈ Store.folders base
    · rcases of_first.folders location mem with ⟨second_kept, last_kept⟩ | ⟨second_made, last_made⟩ <;>
        rcases of_second.folders location mem with ⟨first_kept, final_kept⟩ | ⟨first_made, final_made⟩
      · rw [last_kept, first_kept, final_kept, second_kept]
      · rw [last_kept, first_made, final_made]
      · rw [last_made, final_kept, second_made]
      · rw [last_made, final_made]
    · by_cases mine : own location
      · rw [after_first.kept mem (disjoint location mine),
          of_second.changes.kept mem (disjoint location mine)]
      · rw [of_first.changes.kept mem mine, after_second.kept mem mine]
  · rw [after_first.workingDirectory, of_second.changes.workingDirectory]

end Store

namespace Operation

/-- Operations on different chains or machines commute, and neither notices the other one. -/
theorem run_comm (store : Store) {tree : FileTree} {base : Location}
    (located : tree.locate store.root = .ok base) (directory : tree.node? base = some .directory)
    (first second : Operation)
    (apart : first.chain ≠ second.chain ∨ first.machine ≠ second.machine)
    (short_first : first.ShortNames) (short_second : second.ShortNames) :
    (second.run store (first.run store tree).1).1 = (first.run store (second.run store tree).1).1 ∧
    (second.run store (first.run store tree).1).2 = (second.run store tree).2 ∧
    (first.run store (second.run store tree).1).2 = (first.run store tree).2 := by
  have at_root := FileTree.directoryAt_of_locate located directory
  have changes_first := changesOnly_run at_root first
  have changes_second := changesOnly_run at_root second
  have disjoint : ∀ location, first.Own base location → ¬ second.Own base location :=
    fun _ own => own.not_own apart
  have disjoint' : ∀ location, second.Own base location → ¬ first.Own base location :=
    fun location own other => disjoint location other own
  obtain ⟨answers, of_first⟩ := lockstep_run at_root changes_first disjoint' short_second
  obtain ⟨answers', of_second⟩ := lockstep_run at_root changes_second disjoint short_first
  refine ⟨?_, answers, answers'⟩
  exact (of_first.eq disjoint of_second
    (changesOnly_run (changes_first.keepsDirectories.directoryAt at_root) second)
    (changesOnly_run (changes_second.keepsDirectories.directoryAt at_root) first))

/-- A cleanup for a machine that is called like a script of another one. -/
def scriptLike : Cleanup where
  chain := 7
  machine := "m1_chunk_1"
  chunk := 1
  failed := true

theorem run_comm_scriptLike :
    Cleanup.leftovers.locate ⟨"salt"⟩ = .ok [FileName.ofString "salt"] ∧
    Cleanup.leftovers.node? [FileName.ofString "salt"] = some .directory ∧
    ((create Store.twoChunks).chain ≠ (clean scriptLike).chain ∨
      (create Store.twoChunks).machine ≠ (clean scriptLike).machine) ∧
    (create Store.twoChunks).ShortNames ∧ (clean scriptLike).ShortNames ∧
    ((clean scriptLike).run ⟨⟨"salt"⟩⟩
        ((create Store.twoChunks).run ⟨⟨"salt"⟩⟩ Cleanup.leftovers).1).1 =
      ((create Store.twoChunks).run ⟨⟨"salt"⟩⟩
        ((clean scriptLike).run ⟨⟨"salt"⟩⟩ Cleanup.leftovers).1).1 ∧
    ((clean scriptLike).run ⟨⟨"salt"⟩⟩
        ((create Store.twoChunks).run ⟨⟨"salt"⟩⟩ Cleanup.leftovers).1).2 =
      ((clean scriptLike).run ⟨⟨"salt"⟩⟩ Cleanup.leftovers).2 ∧
    ((create Store.twoChunks).run ⟨⟨"salt"⟩⟩
        ((clean scriptLike).run ⟨⟨"salt"⟩⟩ Cleanup.leftovers).1).2 =
      ((create Store.twoChunks).run ⟨⟨"salt"⟩⟩ Cleanup.leftovers).2 := by
  have located : Cleanup.leftovers.locate ⟨"salt"⟩ = .ok [FileName.ofString "salt"] :=
    Store.eq_ok_of_toOption (by decide +kernel)
  have directory : Cleanup.leftovers.node? [FileName.ofString "salt"] = some .directory := by
    decide +kernel
  have apart : (create Store.twoChunks).chain ≠ (clean scriptLike).chain ∨
      (create Store.twoChunks).machine ≠ (clean scriptLike).machine := by decide
  have short_first : (create Store.twoChunks).ShortNames := shortNames_of_machine_le (by decide)
  have short_second : (clean scriptLike).ShortNames := shortNames_of_machine_le (by decide)
  exact ⟨located, directory, apart, short_first, short_second,
    run_comm ⟨⟨"salt"⟩⟩ located directory (create Store.twoChunks) (clean scriptLike) apart short_first
      short_second⟩

end Operation

end ChunkedChain
