import ChunkedChain.Proofs.Keeping

/-!
# One chain for two targets

Compile the same steps for two targets and take both runs side by side: they are cut at the same steps, and
in each chunk a step is linked to the counterpart of what it is linked to in the other run. The machine
shows in the names of script files and in the addresses of scripts, and nowhere else; the minion shows
nowhere at all.
-/

namespace ChunkedChain

/-- What one task is in the chunks of two targets: the same, but for the address of a script. -/
inductive Task.Counterpart (address address' : UInt64 → String) : Task → Task → Prop where
  | run (function : String) (args : Entries Value) (kwargs : Option (Entries Value)) :
      Counterpart address address' (.run function args kwargs) (.run function args kwargs)
  | script (script : Script) :
      Counterpart address address'
        (.script { script with source := some (address script.action) })
        (.script { script with source := some (address' script.action) })
  | reboot (delay : UInt32) : Counterpart address address' (.reboot delay) (.reboot delay)

/-- What one step is in the chunks with this number on two machines: the id and the requisites are the same,
and a script has the address of its file on each machine. -/
inductive Step.Counterpart (chain : UInt64) (number : UInt32) (machine machine' : String) :
    Step → Step → Prop where
  | mark : Counterpart chain number machine machine' .rebootMark .rebootMark
  | state {id : String} {task task' : Task} {requisites : Requisites} :
      Task.Counterpart
        (fun action => ScriptFile.source (ScriptFile.nameOf chain machine number action))
        (fun action => ScriptFile.source (ScriptFile.nameOf chain machine' number action)) task task' →
      Counterpart chain number machine machine' (.state ⟨id, task, requisites⟩)
        (.state ⟨id, task', requisites⟩)

/-- The files of one script on two machines: the same contents, and names that tell the machine. -/
inductive ScriptFile.Counterpart (chain : UInt64) (number : UInt32) (machine machine' : String) :
    ScriptFile → ScriptFile → Prop where
  | script (action : UInt64) (contents : String) :
      Counterpart chain number machine machine' ⟨nameOf chain machine number action, contents⟩
        ⟨nameOf chain machine' number action, contents⟩

/-- What one part of a chain is on two machines. -/
structure Chunk.Counterpart (chain : UInt64) (machine machine' : String) (chunk other : Chunk) : Prop where
  chains : chunk.chain = chain ∧ other.chain = chain
  machines : chunk.machine = machine ∧ other.machine = machine'
  number : other.number = chunk.number
  continuation : other.continuation = chunk.continuation
  steps : List.Forall₂ (Step.Counterpart chain chunk.number machine machine') chunk.steps other.steps
  scripts : List.Forall₂ (ScriptFile.Counterpart chain chunk.number machine machine') chunk.scripts
    other.scripts
  /-- Without a script, the document is the same one. -/
  document : (∀ step ∈ chunk.steps, step.script? = none) →
    Document.value other.documentSteps = Document.value chunk.documentSteps

/-- The last reference is that to the last step that has one. -/
theorem Step.lastRef?_eq (steps : List Step) :
    lastRef? steps = (steps.filterMap StateRef.of?).getLast? := by
  have references : StateRef.of? =
      fun step => step.state?.map fun s : State => (⟨s.task.stateModule, s.id⟩ : StateRef) := by
    funext step
    cases step with
    | state s => exact of?_state s
    | rebootMark => rfl
  rw [lastRef?, lastReal?_eq]
  conv_rhs => rw [references, ← List.map_filterMap, List.getLast?_map]
  cases (steps.filterMap state?).getLast? with
  | none => rfl
  | some s => exact of?_state s

theorem Step.after_congr {previous other : Option Step}
    (same : other.bind StateRef.of? = previous.bind StateRef.of?) (step : Step) :
    step.after other = step.after previous := by
  rw [after, after, same]

section Counterparts

variable {chain : UInt64} {number : UInt32} {machine machine' : String}

theorem Task.Counterpart.stateModule_eq {address address' : UInt64 → String} {task task' : Task}
    (twin : Task.Counterpart address address' task task') : task'.stateModule = task.stateModule := by
  cases twin <;> simp only [stateModule]

namespace Step.Counterpart

variable {step other : Step} (twin : Step.Counterpart chain number machine machine' step other)

include twin

/-- Other steps refer to both in the same way. -/
theorem reference_eq : StateRef.of? other = StateRef.of? step := by
  cases twin with
  | mark => rfl
  | state task =>
    rw [of?_state, of?_state, task.stateModule_eq]

theorem isSome_state?_eq : other.state?.isSome = step.state?.isSome := by
  cases twin <;> rfl

theorem eq_of_no_script (plain : step.script? = none) : other = step := by
  cases twin with
  | mark => rfl
  | state task =>
    cases task with
    | run | reboot => rfl
    | script script => cases plain

theorem scriptFile?_rel :
    Option.Rel (ScriptFile.Counterpart chain number machine machine')
      (Place.scriptFile? ⟨chain, machine, number⟩ step)
      (Place.scriptFile? ⟨chain, machine', number⟩ other) := by
  cases twin with
  | mark => exact .none
  | state task =>
    cases task with
    | run | reboot => exact .none
    | script script => exact .some (.script script.action script.contents)

end Step.Counterpart

theorem Step.lastRef?_eq_of_counterparts {steps others : List Step}
    (twins : List.Forall₂ (Step.Counterpart chain number machine machine') steps others) :
    lastRef? others = lastRef? steps := by
  have references := filterMap_of_forall₂ twins (f := StateRef.of?) (g := id)
    fun step other twin => by rw [twin.reference_eq, Option.map_id_fun, id]
  rw [lastRef?_eq, lastRef?_eq, references, List.map_id_fun, id]

theorem Step.eq_of_counterparts {steps others : List Step}
    (twins : List.Forall₂ (Step.Counterpart chain number machine machine') steps others)
    (plain : ∀ step ∈ steps, step.script? = none) : others = steps := by
  induction twins with
  | nil => rfl
  | cons twin _ ih =>
    obtain ⟨plain_first, plain_rest⟩ := List.forall_mem_cons.mp plain
    rw [twin.eq_of_no_script plain_first, ih plain_rest]

end Counterparts

namespace Place

variable (place : Place) (machine' : String)

def onMachine : Place := { place with machine := machine' }

theorem counterpart_mapState (step : Step) :
    Step.Counterpart place.chain place.chunk place.machine machine' (step.mapState place.placeState)
      (step.mapState (place.onMachine machine').placeState) := by
  cases step with
  | rebootMark => exact .mark
  | state s =>
    refine .state ?_
    cases s.task with
    | run function args kwargs => exact .run function args kwargs
    | script script => exact .script script
    | reboot delay => exact .reboot delay

/-- Both runs stay in step: what a step is linked to has a counterpart that is referred to in the same
way. -/
theorem counterparts_placeSteps {previous other : Option Step}
    (same : other.bind StateRef.of? = previous.bind StateRef.of?) (steps : List Step) :
    List.Forall₂ (Step.Counterpart place.chain place.chunk place.machine machine')
      (place.placeSteps previous steps) ((place.onMachine machine').placeSteps other steps) := by
  induction steps generalizing previous other with
  | nil => exact .nil
  | cons step rest ih =>
    have twin := place.counterpart_mapState machine' (step.after previous)
    rw [placeSteps, placeSteps, Step.after_congr same]
    refine .cons twin (ih ?_)
    rw [twin.isSome_state?_eq]
    split
    · exact twin.reference_eq
    · exact same

end Place

namespace Chunk

theorem continuationAfter_congr (place : Place) (machine' : String) {steps others : List Step}
    (same : Step.lastRef? others = Step.lastRef? steps) :
    continuationAfter (place.onMachine machine') others = continuationAfter place steps :=
  congrArg Step.state? (Step.after_congr same (.state (asksFor place.chain (place.chunk + 1))))

theorem counterpart_ofSegment (place : Place) (machine' : String) (closed : Bool)
    (segment : List Step) :
    Counterpart place.chain place.machine machine' (ofSegment place closed segment)
      (ofSegment (place.onMachine machine') closed segment) := by
  have twins := place.counterparts_placeSteps machine' (rfl : Option.bind none StateRef.of? = _) segment
  have continuation : (ofSegment (place.onMachine machine') closed segment).continuation =
      (ofSegment place closed segment).continuation := by
    rw [ofSegment, ofSegment]
    dsimp only
    rw [continuationAfter_congr place machine' (Step.lastRef?_eq_of_counterparts twins)]
  refine ⟨⟨rfl, rfl⟩, ⟨rfl, rfl⟩, rfl, continuation, twins, ?_, fun plain => ?_⟩
  · exact List.rel_filterMap (fun _ _ twin => twin.scriptFile?_rel) twins
  · have steps : (ofSegment (place.onMachine machine') closed segment).steps =
        (ofSegment place closed segment).steps := Step.eq_of_counterparts twins plain
    rw [documentSteps, documentSteps, steps, continuation]

theorem counterparts_ofSegments (place : Place) (machine' : String) (cuts : List (List Step)) :
    List.Forall₂ (Counterpart place.chain place.machine machine') (ofSegments place cuts)
      (ofSegments (place.onMachine machine') cuts) := by
  fun_induction ofSegments place cuts with
  | case1 => exact .nil
  | case2 place last => exact .cons (counterpart_ofSegment place machine' false last) .nil
  | case3 place segment rest more ih =>
    rw [ofSegments.eq_3 _ _ _ more]
    exact .cons (counterpart_ofSegment place machine' true segment) ih

end Chunk

/-- Two targets of the same steps get as many chunks, and each chunk of one is the counterpart of that of
the other; a target that has another minion only gets the very same chunks. -/
theorem compile_for_two_targets (id : UInt64) (steps : List Step) (target other : Target) :
    List.Forall₂ (Chunk.Counterpart id target.machine other.machine) (compile ⟨id, target, steps⟩)
        (compile ⟨id, other, steps⟩) ∧
      ∀ minion, compile ⟨id, ⟨minion, target.machine⟩, steps⟩ = compile ⟨id, target, steps⟩ :=
  ⟨Chunk.counterparts_ofSegments ⟨id, target.machine, 1⟩ other.machine (segments steps), fun _ => rfl⟩

end ChunkedChain
