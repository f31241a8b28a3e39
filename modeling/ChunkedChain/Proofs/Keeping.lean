import ChunkedChain.Proofs.ChainWrites

/-!
# What compiling keeps

A step comes out of compiling with its chunk's suffix on its id, with one requisite more at most, and a
script with the address of its file, whatever address it had before. All else about it is what it was:
what it does and with which arguments, the requisites it came with, and whether it ends its chunk. The
files of a chunk are the scripts of its steps, one file for each.
-/

namespace ChunkedChain

/-- The task is the same one, but for a script, which has the address of its action's file. -/
inductive Task.Kept (address : UInt64 → String) : Task → Task → Prop where
  | run (function : String) (args : Entries Value) (kwargs : Option (Entries Value)) :
      Kept address (.run function args kwargs) (.run function args kwargs)
  | script (action : UInt64) (contents : String) (user : Option String) (timeout : Option UInt64)
      (source : Option String) :
      Kept address (.script ⟨action, contents, user, timeout, source⟩)
        (.script ⟨action, contents, user, timeout, some (address action)⟩)
  | reboot (delay : UInt32) : Kept address (.reboot delay) (.reboot delay)

/-- The second step is what the first one is in chunk `number` of a chain on a machine. -/
inductive Step.Kept (chain : UInt64) (machine : String) (number : UInt32) : Step → Step → Prop where
  | mark : Kept chain machine number .rebootMark .rebootMark
  | state {id : String} {task placed : Task} {own : List Requisite} (added : Option Requisite) :
      Task.Kept (fun action => ScriptFile.source (ScriptFile.nameOf chain machine number action)) task
        placed →
      Kept chain machine number (.state ⟨id, task, ⟨own⟩⟩)
        (.state ⟨id ++ "_chunk_" ++ decimal number.toNat, placed, ⟨own ++ added.toList⟩⟩)

/-- The chunk holds the steps of `input` and the files of their scripts, each once and in order. -/
structure Chunk.Keeps (chain : Chain) (input : List Step) (chunk : Chunk) : Prop where
  steps : List.Forall₂ (Step.Kept chain.id chain.target.machine chunk.number) input chunk.steps
  endsChunk : chunk.steps.map Step.endsChunk = input.map Step.endsChunk
  scripts : chunk.scripts = (input.filterMap Step.script?).map fun script =>
    ⟨ScriptFile.nameOf chain.id chain.target.machine chunk.number script.action, script.contents⟩

theorem Place.kept_placeTask (place : Place) (task : Task) :
    Task.Kept (fun action =>
      ScriptFile.source (ScriptFile.nameOf place.chain place.machine place.chunk action)) task
      (place.placeTask task) := by
  rcases task with ⟨function, args, kwargs⟩ | ⟨action, contents, user, timeout, source⟩ | delay
  · exact .run function args kwargs
  · exact .script action contents user timeout source
  · exact .reboot delay

theorem Step.Compiled.kept {place : Place} {input output : Step}
    (compiled : Step.Compiled place input output) :
    Step.Kept place.chain place.machine place.chunk input output := by
  cases compiled with
  | mark => exact .mark
  | @state s t added id task requisites few =>
    obtain ⟨input_id, input_task, ⟨own⟩⟩ := s
    obtain ⟨output_id, output_task, ⟨all⟩⟩ := t
    obtain rfl : output_id = input_id ++ StateId.chunkSuffix place.chunk := id
    obtain rfl : output_task = place.placeTask input_task := task
    obtain rfl : all = own ++ added := requisites
    have one : added = added.head?.toList := by
      rcases added with _ | ⟨first, _ | ⟨second, rest⟩⟩
      · rfl
      · rfl
      · simp at few
    rw [one, StateId.chunkSuffix, ← String.append_assoc]
    exact .state _ (place.kept_placeTask input_task)

theorem Chunk.PlacedFrom.keeps {chain : Chain} {input : List Step} {chunk : Chunk}
    (placed : PlacedFrom chain input chunk) : Keeps chain input chunk := by
  have place_eq : chunk.place = ⟨chain.id, chain.target.machine, chunk.number⟩ := by
    rw [place, placed.chain_eq, placed.machine_eq]
  have compiled := placed.compiled
  rw [place_eq] at compiled
  refine ⟨compiled.imp fun _ _ step => step.kept, ?_, ?_⟩
  · exact map_of_forall₂ compiled fun _ _ step => step.endsChunk_eq
  · rw [chunk.scripts_eq, stepScripts,
      filterMap_of_forall₂ compiled fun _ _ step => step.script?_eq, List.map_map]
    refine List.map_congr_left fun script _ => ?_
    rw [Function.comp_apply, fileOf, scriptName, placed.chain_eq, placed.machine_eq]
    rfl

/-- Compiling a chain keeps its steps, all of them and in order, and so do the chunks that come of taking
the steps one by one, with the scripts noted on the way. -/
theorem compile_keeps_steps (chain : Chain) (bound : chain.splits ≤ UInt32.size - 2) :
    ∃ inputs : List (List Step), inputs.flatten = chain.steps ∧
      (compile chain).map (fun chunk => chunk.number.toNat) = List.range' 1 inputs.length ∧
      Splitter.run? chain = some ((compile chain).map fun chunk => (chunk, chunk.scripts)) ∧
      List.Forall₂ (Chunk.Keeps chain) inputs (compile chain) := by
  have bound := chain.splits_add_two_le bound
  refine ⟨segments chain.steps, flatten_segments _, ?_, ?_, ?_⟩
  · rw [numbers_compile bound, chain.length_segments]
  · rw [Splitter.run?_eq, if_pos bound]
  · exact (placedFrom_compile chain).imp fun _ _ placed => placed.keeps

/-- Steps of every kind around a reboot, a script among them that has an address already, and a state that
has a requisite and keyword arguments without any in them. -/
def filledSteps : Chain where
  id := 7
  target := ⟨"node", "m1"⟩
  steps :=
    [.state ⟨"a", .run "pkg.install" [("name", .text "vim"), ("refresh", .bool true)] (some []),
        ⟨[⟨.watch, "cmd", "z"⟩]⟩⟩,
      .state ⟨"b", .script ⟨4, "exit 0", some "root", some 60, some "salt://other.sh"⟩, .empty⟩,
      .state ⟨"c", .reboot 3, .empty⟩,
      .state ⟨"b", .script ⟨4, "exit 1", none, none, none⟩, .empty⟩, .rebootMark]

theorem compile_keeps_filledSteps :
    filledSteps.splits ≤ UInt32.size - 2 ∧
      ∃ inputs : List (List Step), inputs.flatten = filledSteps.steps ∧
        (compile filledSteps).map (fun chunk => chunk.number.toNat) = List.range' 1 inputs.length ∧
        Splitter.run? filledSteps =
          some ((compile filledSteps).map fun chunk => (chunk, chunk.scripts)) ∧
        List.Forall₂ (Chunk.Keeps filledSteps) inputs (compile filledSteps) := by
  have bound : filledSteps.splits ≤ UInt32.size - 2 := by
    have two : filledSteps.splits = 2 := by decide +kernel
    rw [two]
    decide
  exact ⟨bound, compile_keeps_steps filledSteps bound⟩

end ChunkedChain
