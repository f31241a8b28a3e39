import ChunkedChain.Proofs.LongPaths
import ChunkedChain.Proofs.OwnFiles

/-!
# What a cleanup takes and what it leaves

A cleanup takes the files among its paths, and reports every path that it cannot deal with. Whatever is
elsewhere stays, and so does a script that its path does not lead to.
-/

namespace ChunkedChain

namespace ScriptFile

variable {chain : UInt64} {machine : String} {chunk : UInt32} {action : UInt64}

theorem chunk?_nameOf_self : chunk? (nameOf chain machine chunk action) chain machine = some chunk :=
  (chunk?_nameOf chain chain machine machine chunk action).trans (if_pos ⟨rfl, rfl⟩)

theorem plainName_nameOf (no_slash : '/' ∉ machine.toList) :
    PlainName (nameOf chain machine chunk action) := plainName_of_chunk? no_slash chunk?_nameOf_self

theorem no_nul_nameOf (no_nul : '\x00' ∉ machine.toList) :
    '\x00' ∉ (nameOf chain machine chunk action).toList := by
  have decimals (n : Nat) : '\x00' ∉ (decimal n).toList := not_mem_decimal (by decide) n
  rw [toList_nameOf, toList_stem]
  simp only [List.mem_append, List.mem_cons, not_or]
  exact ⟨⟨⟨by decide, decimals _, by decide, no_nul⟩, by decide⟩, ⟨⟨decimals _, by decide⟩, decimals _⟩,
    by decide⟩

end ScriptFile

namespace Cleanup

open Store

variable {cleanup : Cleanup} {store : Store} {tree : FileTree} {base : Location}

theorem mem_paths_of_stale {name : String} (stale : cleanup.Stale store tree name) :
    store.scriptsDirectory / name ∈ cleanup.paths store tree :=
  List.mem_cons_of_mem _ (List.mem_map_of_mem (mem_scriptNames.mpr stale))

variable (plain : ¬ HoldsSeparator cleanup.machine.toList)

include plain

/-- A file that is to be removed goes, and is reported. -/
theorem gone_of_mem_paths {path : FilePath} (mem : path ∈ cleanup.paths store tree)
    {location : Location} (located : tree.locate path = .ok location) {content : ByteArray}
    (there : tree.node? location = some (.file content)) :
    path ∈ (cleanup.report store tree).2.removed ∧
      (cleanup.report store tree).1.node? location = none := by
  have removes : cleanup.Removes store tree _ _ := removes_paths plain
  have file : tree.isFile path = true := by
    rw [FileTree.isFile, FileTree.find_of_locate located, there]
  have removed : path ∈ (cleanup.report store tree).2.removed := by
    rw [removes.removed]
    exact List.mem_filter.mpr ⟨mem, file⟩
  exact ⟨removed, removes.without.gone path removed location located⟩

/-- A path that cannot be removed, although something may be there, is reported. -/
theorem error_of_mem_paths {path : FilePath} (mem : path ∈ cleanup.paths store tree) {e : FileError}
    (failed : tree.remove path = .error e) (other : e ≠ .notFound) :
    (path, e.message) ∈ (cleanup.report store tree).2.errors := by
  have removes : cleanup.Removes store tree _ _ := removes_paths plain
  rw [removes.errors]
  refine List.mem_append_right _ (List.mem_filterMap.mpr ⟨path, mem, ?_⟩)
  rw [FileTree.removalError?, failed]
  cases e with
  | notFound => exact absurd rfl other
  | _ => rfl

/-- A cleanup puts nothing anywhere. -/
theorem node?_of_report {location : Location} {node : Node}
    (left : (cleanup.report store tree).1.node? location = some node) :
    tree.node? location = some node := by
  have removes : cleanup.Removes store tree _ _ := removes_paths plain
  by_cases leads : ∃ path ∈ (cleanup.report store tree).2.removed, tree.locate path = .ok location
  · obtain ⟨path, removed, located⟩ := leads
    rw [removes.without.gone path removed location located] at left
    cases left
  · rw [removes.without.kept location fun path removed located => leads ⟨path, removed, located⟩] at left
    exact left

/-- What is neither the document nor a script to be removed, by a path that leads there, stays. -/
theorem node?_report (at_root : tree.DirectoryAt store.root base) {location : Location}
    (no_document : location ≠ documentLocation base cleanup.chain cleanup.machine cleanup.chunk)
    (no_script : ∀ name, cleanup.Stale store tree name → location = scriptLocation base name →
      tree.locate (store.scriptsDirectory / name) ≠ .ok location) :
    (cleanup.report store tree).1.node? location = tree.node? location := by
  have no_slash := (not_or.mp plain).1
  have removes : cleanup.Removes store tree _ _ := removes_paths plain
  refine removes.without.kept location fun path removed located => ?_
  rw [removes.removed] at removed
  rcases List.mem_cons.mp (List.mem_filter.mp removed).1 with rfl | mem
  · exact no_document (eq_of_locate_chains at_root (plainName_documentName no_slash) located)
  · obtain ⟨name, listed, rfl⟩ := List.mem_map.mp mem
    have stale := mem_scriptNames.mp listed
    exact no_script name stale (eq_of_locate_scripts at_root (stale.plainName no_slash) located) located

end Cleanup

end ChunkedChain
