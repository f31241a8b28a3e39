import ChunkedChain.Proofs.ChainFiles
import ChunkedChain.Proofs.ScriptNames

/-!
# What a script step runs

A script step fetches the file of its action in its chunk. If several scripts of a chunk belong to one
action, whatever their ids are, they share this file, and all of them run the last one.
-/

namespace ChunkedChain

/-- The last element of a class, with the elements after it. -/
theorem split_of_getLast?_filter {α : Type} {p : α → Bool} {xs : List α} {x : α}
    (h : (xs.filter p).getLast? = some x) :
    ∃ front back, xs = front ++ x :: back ∧ p x = true ∧ ∀ y ∈ back, p y = false := by
  obtain ⟨before, ends⟩ := List.getLast?_eq_some_iff.mp h
  obtain ⟨front, rest, rfl, -, only⟩ := List.filter_eq_append_iff.mp ends
  obtain ⟨middle, back, rfl, -, holds, none_after⟩ := List.filter_eq_cons_iff.mp only
  refine ⟨front ++ middle, back, by rw [List.append_assoc], holds, fun y mem => ?_⟩
  have fails := List.filter_eq_nil_iff.mp none_after y mem
  simpa using fails

namespace FilePath

/-- Joining names one by one is joining them with a slash, where nothing is absolute and the first one
does not end with a slash. -/
theorem join_join (dir : FilePath) {a b : String} (relative : a.toList.head? ≠ some '/')
    (full : a.toList.getLast?.all (· = '/') = false) (relative_b : b.toList.head? ≠ some '/') :
    dir / a / b = dir / (a ++ "/" ++ b) := by
  change join (join dir a) b = join dir (a ++ "/" ++ b)
  obtain ⟨last, ends⟩ : ∃ last, a.toList.getLast? = some last := by
    cases ends : a.toList.getLast? with
    | none =>
      rw [ends] at full
      cases full
    | some last => exact ⟨last, rfl⟩
  have heads : (a ++ "/" ++ b).toList.head? = a.toList.head? := by
    obtain ⟨front, shape⟩ := List.getLast?_eq_some_iff.mp ends
    rw [String.toList_append, String.toList_append, shape]
    cases front <;> rfl
  have middle (text : String) : (text ++ a).toList.getLast? = a.toList.getLast? := by
    rw [String.toList_append, List.getLast?_append, ends]
    rfl
  unfold join
  rw [heads, if_neg relative, if_neg relative, if_neg relative_b]
  split
  · rw [if_neg]
    · simp only [String.append_assoc]
    · rw [middle, full]
      exact Bool.false_ne_true
  · rw [if_neg]
    · simp only [String.append_assoc]
    · rw [middle, full]
      exact Bool.false_ne_true

end FilePath

namespace Chunk

variable {chain : Chain} {chunk : Chunk}

/-- The script that stands last among those of an action. -/
def lastOf? (chunk : Chunk) (action : UInt64) : Option Script :=
  (chunk.stepScripts.filter fun script => script.action = action).getLast?

theorem scriptName_inj {other : Chunk} {action action' : UInt64}
    (h : chunk.scriptName action = other.scriptName action') :
    chunk.number = other.number ∧ action = action' := (ScriptFile.nameOf_inj h).2

theorem head?_scriptName (chunk : Chunk) (action : UInt64) :
    (chunk.scriptName action).toList.head? = some 's' := by
  rw [scriptName, ScriptFile.toList_nameOf, ScriptFile.toList_stem]
  rfl

theorem source_of_mem (h : chunk ∈ compile chain) {script : Script} (mem : script ∈ chunk.stepScripts) :
    script.source = some (ScriptFile.source (chunk.scriptName script.action)) := by
  obtain ⟨segment, placed⟩ := exists_placedFrom h
  obtain ⟨output, output_mem, of_output⟩ := List.mem_filterMap.mp mem
  obtain ⟨input, -, compiled⟩ := forall₂_exists_of_mem placed.compiled.flip output_mem
  rw [compiled.script?_eq, Option.map_eq_some_iff] at of_output
  obtain ⟨own, -, rfl⟩ := of_output
  rfl

theorem lastOf?_of_split {earlier later : List Script} {script : Script}
    (split : chunk.stepScripts = earlier ++ script :: later) :
    ∃ kept, chunk.lastOf? script.action = some kept ∧
      (kept = script ∨ kept ∈ later ∧ kept.action = script.action) := by
  have own : (script :: later).filter (fun other => other.action = script.action) =
      script :: later.filter fun other => other.action = script.action :=
    List.filter_cons_of_pos (decide_eq_true rfl)
  rw [lastOf?, split, List.filter_append, own, List.getLast?_append, List.getLast?_cons]
  cases ends : (later.filter fun other => other.action = script.action).getLast? with
  | none => exact ⟨script, rfl, .inl rfl⟩
  | some kept =>
    have mem := List.mem_filter.mp (List.mem_of_getLast? ends)
    exact ⟨kept, rfl, .inr ⟨mem.1, of_decide_eq_true mem.2⟩⟩

end Chunk

namespace Store

variable {store : Store} {chain : Chain} {tree after : FileTree} {base : Location}

/-- The address of a script names its file below the states root. -/
theorem scriptsDirectory_join (store : Store) {name : String} (relative : name.toList.head? ≠ some '/') :
    store.root / (chainsFolder ++ "/" ++ scriptsFolder ++ "/" ++ name) =
      store.scriptsDirectory / name := by
  have folders : store.scriptsDirectory = store.root / (chainsFolder ++ "/" ++ scriptsFolder) :=
    FilePath.join_join store.root (by decide) (by decide) (by decide)
  rw [folders]
  exact (FilePath.join_join store.root (by decide) (by decide) relative).symm

/-- What script steps fetch: the file of their action, with the last script of the action in the chunk;
so their own contents, unless a later script of the same action has other ones. -/
def ProvidesSources (store : Store) (chain : Chain) (after : FileTree) : Prop :=
  ∀ chunk ∈ compile chain, ∀ (earlier : List Script) (script : Script) (later : List Script),
    chunk.stepScripts = earlier ++ script :: later →
    ∃ path kept, script.source = some ("salt://" ++ path) ∧
      chunk.lastOf? script.action = some kept ∧
      after.find (store.root / path) = .ok (.file kept.contents.toUTF8) ∧
      ((∀ other ∈ later, other.action = script.action → other.contents = script.contents) →
        kept.contents = script.contents)

/-- The file of an action's scripts holds the last of them. -/
theorem WroteAll.find_lastOf (wrote : store.WroteAll base (chainWrites chain) tree after)
    (at_root : tree.DirectoryAt store.root base) (bound : chain.splits + 2 ≤ UInt32.size)
    {chunk : Chunk} (h : chunk ∈ compile chain) {action : UInt64} {kept : Script}
    (last : chunk.lastOf? action = some kept) :
    after.find (store.scriptsDirectory / chunk.scriptName action) =
      .ok (.file kept.contents.toUTF8) := by
  obtain ⟨before, others, chunks⟩ := List.append_of_mem h
  rw [Chunk.lastOf?] at last
  obtain ⟨front, back, scripts, own, alone⟩ := split_of_getLast?_filter last
  have own : kept.action = action := of_decide_eq_true own
  subst own
  have split : (compile chain).flatMap Chunk.scripts =
      (before.flatMap Chunk.scripts ++ front.map chunk.fileOf) ++
        chunk.fileOf kept :: (back.map chunk.fileOf ++ others.flatMap Chunk.scripts) := by
    rw [chunks, List.flatMap_append, List.flatMap_cons, chunk.scripts_eq, scripts, List.map_append,
      List.map_cons]
    simp only [List.append_assoc, List.cons_append]
  have found := wrote.find_script at_root split ?_
  · exact found
  intro other mem same
  rcases List.mem_append.mp mem with mem | mem
  · obtain ⟨script, later, rfl⟩ := List.mem_map.mp mem
    exact of_decide_eq_false (alone script later) (Chunk.scriptName_inj same).2
  · obtain ⟨next, later, written⟩ := List.mem_flatMap.mp mem
    rw [next.scripts_eq] at written
    obtain ⟨script, -, rfl⟩ := List.mem_map.mp written
    exact number_ne_of_later bound chunks later (Chunk.scriptName_inj same).1

/-- Every script step of a chain whose files have been written finds a file at its address, and in it the
last script of its action in its chunk. -/
theorem createChainFiles_provides_sources (store : Store) (chain : Chain)
    (bound : chain.splits ≤ UInt32.size - 2) {tree after : FileTree} {base : Location}
    (located : tree.locate store.root = .ok base) (directory : tree.node? base = some .directory)
    {paths : List FilePath} (written : store.createChainFiles chain tree = (after, .ok paths)) :
    store.ProvidesSources chain after := by
  have bound := chain.splits_add_two_le bound
  have at_root := FileTree.directoryAt_of_locate located directory
  obtain ⟨-, wrote⟩ := wroteAll_of_createChainFiles at_root written
  intro chunk h earlier script later split
  have mem : script ∈ chunk.stepScripts := split ▸ List.mem_append_right _ List.mem_cons_self
  have relative : (chunk.scriptName script.action).toList.head? ≠ some '/' := by
    rw [Chunk.head?_scriptName]
    decide
  obtain ⟨kept, last, origin⟩ := Chunk.lastOf?_of_split split
  refine ⟨chainsFolder ++ "/" ++ scriptsFolder ++ "/" ++ chunk.scriptName script.action, kept, ?_, last,
    ?_, ?_⟩
  · rw [Chunk.source_of_mem h mem, ScriptFile.source]
    simp only [String.append_assoc]
  · rw [store.scriptsDirectory_join relative]
    exact wrote.find_lastOf at_root bound h last
  · intro alike
    rcases origin with rfl | ⟨mem, action⟩
    · rfl
    · exact alike kept mem action

/-- Two scripts of one action, with ids and contents of their own. -/
def sharedAction : Chain where
  id := 7
  target := ⟨"node", "m1"⟩
  steps :=
    [.state ⟨"a", .script ⟨4, "echo a", none, none, none⟩, .empty⟩,
      .state ⟨"b", .script ⟨4, "echo b", none, none, none⟩, .empty⟩]

/-- A tree with nothing but a states root. -/
def saltOnly : FileTree := FileTree.empty.putAt [FileName.ofString "salt"] .directory

theorem locate_saltOnly : saltOnly.locate ⟨"salt"⟩ = .ok [FileName.ofString "salt"] :=
  eq_ok_of_toOption (by decide +kernel)

theorem directory_saltOnly : saltOnly.node? [FileName.ofString "salt"] = some .directory := by
  decide +kernel

theorem created_twoChunks : ∃ after, createChainFiles ⟨⟨"salt"⟩⟩ twoChunks saltOnly =
    (after, .ok
      [⟨"salt/actionchains/actionchain_7_m1_1.sls"⟩, ⟨"salt/actionchains/actionchain_7_m1_2.sls"⟩]) :=
  ⟨_, eq_mk_of_snd (eq_ok_of_toOption (by decide +kernel))⟩

theorem splits_sharedAction : sharedAction.splits ≤ UInt32.size - 2 := by
  have none : sharedAction.splits = 0 := by decide +kernel
  rw [none]
  exact Nat.zero_le _

theorem created_sharedAction : ∃ after, createChainFiles ⟨⟨"salt"⟩⟩ sharedAction saltOnly =
    (after, .ok [⟨"salt/actionchains/actionchain_7_m1_1.sls"⟩]) ∧
    after.find ⟨"salt/actionchains/scripts/script_suma_actionchain_7_m1_chunk_1_action_4.sh"⟩ =
      .ok (.file "echo b".toUTF8) := by
  have made : (createChainFiles ⟨⟨"salt"⟩⟩ sharedAction saltOnly).2 =
      .ok [⟨"salt/actionchains/actionchain_7_m1_1.sls"⟩] := eq_ok_of_toOption (by decide +kernel)
  exact ⟨_, eq_mk_of_snd made, eq_ok_of_toOption (by decide +kernel)⟩

theorem createChainFiles_provides_sharedAction :
    sharedAction.splits ≤ UInt32.size - 2 ∧
    saltOnly.locate ⟨"salt"⟩ = .ok [FileName.ofString "salt"] ∧
    saltOnly.node? [FileName.ofString "salt"] = some .directory ∧
    ∃ after, ∃ paths, createChainFiles ⟨⟨"salt"⟩⟩ sharedAction saltOnly = (after, .ok paths) ∧
      ProvidesSources ⟨⟨"salt"⟩⟩ sharedAction after := by
  obtain ⟨after, created, -⟩ := created_sharedAction
  exact ⟨splits_sharedAction, locate_saltOnly, directory_saltOnly, after, _, created,
    createChainFiles_provides_sources ⟨⟨"salt"⟩⟩ sharedAction splits_sharedAction locate_saltOnly
      directory_saltOnly created⟩

/-- The ids differ, and yet the first script finds the second one at its address. -/
theorem foreign_source_sharedAction :
    (sharedAction.steps.filterMap Step.id?).Nodup ∧ sharedAction.splits ≤ UInt32.size - 2 ∧
    saltOnly.locate ⟨"salt"⟩ = .ok [FileName.ofString "salt"] ∧
    saltOnly.node? [FileName.ofString "salt"] = some .directory ∧
    ∃ after, ∃ paths, createChainFiles ⟨⟨"salt"⟩⟩ sharedAction saltOnly = (after, .ok paths) ∧
      ∃ script ∈ (compile sharedAction).flatMap Chunk.stepScripts, ∃ path,
        script.source = some ("salt://" ++ path) ∧
        after.find ((⟨"salt"⟩ : FilePath) / path) = .ok (.file "echo b".toUTF8) ∧
        script.contents.toUTF8 ≠ "echo b".toUTF8 := by
  obtain ⟨after, created, found⟩ := created_sharedAction
  refine ⟨by decide, splits_sharedAction, locate_saltOnly, directory_saltOnly, after, _, created, ?_⟩
  have source : (⟨"salt"⟩ : FilePath) /
      "actionchains/scripts/script_suma_actionchain_7_m1_chunk_1_action_4.sh" =
      ⟨"salt/actionchains/scripts/script_suma_actionchain_7_m1_chunk_1_action_4.sh"⟩ := by
    decide +kernel
  refine ⟨⟨4, "echo a", none, none, some
    "salt://actionchains/scripts/script_suma_actionchain_7_m1_chunk_1_action_4.sh"⟩, by decide +kernel,
    "actionchains/scripts/script_suma_actionchain_7_m1_chunk_1_action_4.sh", by decide +kernel, ?_, ?_⟩
  · rw [source, found]
  · decide +kernel

end Store

end ChunkedChain
