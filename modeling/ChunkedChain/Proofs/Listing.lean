import ChunkedChain.FileTree.Operations
import ChunkedChain.Proofs.Paths
import Mathlib.Data.List.Basic

/-!
# Names in a directory

The names in a directory are those under which something is there, each once, in byte order.
-/

namespace ChunkedChain

namespace FileName

/-- The bytes of the first name come before those of the second one. -/
def Before (a b : FileName) : Prop := compare a b = .lt

theorem Before.not_before {a b : FileName} (before : Before a b) : ¬ Before b a := by
  intro back
  have swapped : compare b a = (compare a b).swap := Std.OrientedCmp.eq_swap
  rw [Before, swapped, before] at back
  cases back

theorem Before.ne {a b : FileName} (before : Before a b) : a ≠ b := by
  rintro rfl
  rw [Before, Std.ReflOrd.compare_self] at before
  cases before

end FileName

theorem compare_cons (name : FileName) (a b : Location) :
    compare (name :: a) (name :: b) = compare a b := by
  change List.compareLex compare (name :: a) (name :: b) = _
  rw [List.compareLex_cons_cons, Std.ReflOrd.compare_self]
  rfl

theorem compare_append_singleton (dir : Location) (a b : FileName) :
    compare (dir ++ [a]) (dir ++ [b]) = compare a b := by
  induction dir with
  | nil =>
    change List.compareLex compare [a] [b] = _
    rw [List.compareLex_cons_cons, List.compareLex_nil_nil]
    cases compare a b <;> rfl
  | cons name rest ih => rw [List.cons_append, List.cons_append, compare_cons, ih]

namespace FileTree

/-- The name of a location that is right below the directory. -/
def childName? (dir location : Location) : Option FileName :=
  match dir.isPrefixOf? location with
  | some [name] => some name
  | _ => none

theorem childName?_eq_some {dir location : Location} {name : FileName} :
    childName? dir location = some name ↔ location = dir ++ [name] := by
  unfold childName?
  constructor
  · intro h
    split at h
    · rename_i child cut
      obtain rfl := Option.some.inj h
      exact (List.isPrefixOf?_eq_some_iff_append_eq.mp cut).symm
    · cases h
  · rintro rfl
    rw [List.isPrefixOf?_eq_some_iff_append_eq.mpr rfl]

theorem names_eq (tree : FileTree) (dir : Location) :
    tree.names dir = tree.nodes.toList.filterMap fun entry => childName? dir entry.1 := by
  rw [names, below, List.filterMap_filterMap]
  refine congrArg (fun f => List.filterMap f tree.nodes.toList) (funext fun entry => ?_)
  obtain ⟨location, node⟩ := entry
  dsimp only
  unfold childName?
  cases dir.isPrefixOf? location with
  | none => rfl
  | some rest =>
    match rest with
    | [] => rfl
    | [name] => rfl
    | _ :: _ :: _ => rfl

theorem mem_names {tree : FileTree} {dir : Location} {name : FileName} :
    name ∈ tree.names dir ↔ (tree.node? (dir ++ [name])).isSome := by
  rw [names_eq, List.mem_filterMap, Option.isSome_iff_exists]
  constructor
  · rintro ⟨⟨location, node⟩, mem, child⟩
    obtain rfl := childName?_eq_some.mp child
    exact ⟨node, Std.ExtTreeMap.mem_toList_iff_getElem?_eq_some.mp mem⟩
  · rintro ⟨node, there⟩
    exact ⟨(dir ++ [name], node), Std.ExtTreeMap.mem_toList_iff_getElem?_eq_some.mpr there,
      childName?_eq_some.mpr rfl⟩

theorem names_sorted (tree : FileTree) (dir : Location) :
    (tree.names dir).Pairwise FileName.Before := by
  rw [names_eq, List.pairwise_filterMap]
  refine Std.ExtTreeMap.ordered_keys_toList.imp ?_
  intro a b before name_a child_a name_b child_b
  rw [childName?_eq_some.mp child_a, childName?_eq_some.mp child_b] at before
  exact (compare_append_singleton dir name_a name_b).symm.trans before

/-- Only a directory can be listed. -/
theorem list_eq_ok {tree : FileTree} {path : FilePath} {names : List FileName} :
    tree.list path = .ok names ↔
      ∃ dir, tree.locate path = .ok dir ∧ tree.node? dir = some .directory ∧ names = tree.names dir := by
  unfold list
  constructor
  · intro h
    cases located : tree.locate path with
    | error e =>
      rw [located] at h
      cases h
    | ok dir =>
      rw [located] at h
      dsimp only [bind, Except.bind] at h
      split at h
      · cases h
      · exact ⟨dir, rfl, ‹_›, (Except.ok.inj h).symm⟩
      · cases h
  · rintro ⟨dir, located, directory, rfl⟩
    simp [located, directory, bind, Except.bind]

end FileTree

end ChunkedChain
