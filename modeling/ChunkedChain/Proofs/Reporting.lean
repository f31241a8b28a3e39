import ChunkedChain.ChainFile
import ChunkedChain.Proofs.DocumentOrder
import ChunkedChain.Proofs.ReportedKeys
import ChunkedChain.Proofs.Requirements

/-!
# Reports on compiled chains

The steps of a chain file get their ids from the chain and the action, and their chunk's number in the
compiled chain. A node that has run the document of a chunk reports each state under a key with this id,
so the report on a chunk is read back to the actions of the chunk, in their order and with what the node
says about them. The continuation is reported too, and passed over.
-/

namespace ChunkedChain

theorem forall₂_comp {α β γ : Type} {R : α → β → Prop} {S : β → γ → Prop} {xs : List α} {ys : List β}
    {zs : List γ} (left : List.Forall₂ R xs ys) (right : List.Forall₂ S ys zs) :
    List.Forall₂ (fun x z => ∃ y, R x y ∧ S y z) xs zs := by
  induction left generalizing zs with
  | nil =>
    cases right
    exact .nil
  | cons related _ ih =>
    cases right with
    | cons next right => exact .cons ⟨_, related, next⟩ (ih right)

theorem zip_append_of_length_eq {α β : Type} {xs : List α} {ys : List β}
    (h : xs.length = ys.length) (zs : List β) : xs.zip (ys ++ zs) = xs.zip ys := by
  have split : (xs ++ []).zip (ys ++ zs) = xs.zip ys ++ List.zip [] zs := List.zip_append h
  rwa [List.append_nil, List.zip_nil_left, List.append_nil] at split

/-- The pieces of a mapped list are mapped pieces of the list. -/
theorem exists_pieces_of_map {α β : Type} {f : α → β} {xs : List α} {pieces : List (List β)}
    (h : pieces.flatten = xs.map f) :
    ∃ inputs : List (List α), inputs.flatten = xs ∧ pieces = inputs.map (List.map f) := by
  induction pieces generalizing xs with
  | nil => exact ⟨[], by simpa using h.symm, rfl⟩
  | cons piece pieces ih =>
    obtain ⟨front, back, rfl, rfl, rest⟩ := List.map_eq_append_iff.mp (h.symm.trans List.flatten_cons)
    obtain ⟨inputs, rfl, rfl⟩ := ih rest.symm
    exact ⟨front :: inputs, rfl, rfl⟩

theorem Entries.insertAll_of_nodup {α : Type} {entries new : Entries α}
    (nodup : (keys entries ++ keys new).Nodup) : insertAll entries new = entries ++ new := by
  induction new generalizing entries with
  | nil => simp [insertAll_nil]
  | cons pair new ih =>
    have fresh : pair.1 ∉ keys entries := by
      intro mem
      exact (List.nodup_append.mp nodup).2.2 pair.1 mem pair.1 List.mem_cons_self rfl
    rw [insertAll_cons, insert_of_not_mem fresh, ih]
    · simp
    · simpa [keys] using nodup

namespace StepDefinition

/-- The action that a step carries out, unless it is a mark. -/
def action? : StepDefinition → Option UInt64
  | .run action .. => some action
  | .script action .. => some action
  | .reboot action .. => some action
  | .rebootMark => none

/-- The state id that a step sets by itself. -/
def ownId? : StepDefinition → Option String
  | .run _ id .. => id
  | .script _ id .. => id
  | .reboot _ id _ => id
  | .rebootMark => none

/-- A step without an id of its own has that of its action; a mark has none. -/
theorem toStep_of_derived {definition : StepDefinition} (derived : definition.ownId? = none)
    (chain : UInt64) :
    (definition.action? = none ∧ definition.toStep chain = .rebootMark) ∨
    ∃ action s, definition.action? = some action ∧ definition.toStep chain = .state s ∧
      s.id = StateId.ofAction chain action := by
  cases definition with
  | rebootMark => exact .inl ⟨rfl, rfl⟩
  | run action id function args kwargs =>
    obtain rfl : id = none := derived
    exact .inr ⟨action, _, rfl, rfl, rfl⟩
  | script action id contents user timeout =>
    obtain rfl : id = none := derived
    exact .inr ⟨action, _, rfl, rfl, rfl⟩
  | reboot action id delay =>
    obtain rfl : id = none := derived
    exact .inr ⟨action, _, rfl, rfl, rfl⟩

end StepDefinition

/-- The entry of a report on a state: it stands under a key of this state. -/
def State.ReportedAs (s : State) (entry : String × Value) : Prop :=
  ∃ name function, StateId.Foreign name ∧ StateId.Foreign function ∧
    entry.1 = StateId.key s.task.stateModule s.id name function

/-- The flag in what is reported on a state: none if there is no field `result`, or no boolean in it. -/
def Report.flag? (state : Value) : Option Bool :=
  match state.field? "result" with
  | some (.bool flag) => some flag
  | _ => none

theorem Report.result?_eq (state : Value) : result? state = flag? state := by
  unfold result? flag?
  cases state.field? "result" with
  | none => rfl
  | some value => cases value <;> rfl

namespace Chunk

/-- The chunk is made of `input`, and what a node reports on it is read back. -/
structure ReadBackFrom (chain : UInt64) (input : List StepDefinition) (chunk : Chunk) : Prop where
  /-- The key of every state tells the chain, the action and the chunk. -/
  steps : List.Forall₂ (fun definition step =>
    match StepDefinition.action? definition with
    | some action => ∃ s, step = Step.state s ∧ ∀ name function, StateId.Foreign name →
        StateId.Foreign function →
        StateId.decode? (StateId.key s.task.stateModule s.id name function) =
          some ⟨chain, action, chunk.number⟩
    | none => step = .rebootMark) input chunk.steps
  /-- The key of the continuation tells nothing. -/
  continuation : ∀ c ∈ chunk.continuation, ∀ name function, StateId.Foreign name →
    StateId.Foreign function →
    StateId.decode? (StateId.key c.task.stateModule c.id name function) = none
  /-- If no action comes twice, a report on all states of the document is read as one entry for each
  action, in their order. -/
  report : (input.filterMap StepDefinition.action?).Nodup → ∀ reported : List (String × Value),
    List.Forall₂ State.ReportedAs (chunk.documentSteps.filterMap Step.state?) reported →
    (input.filterMap StepDefinition.action?).length ≤ reported.length ∧
    Report.decode (.object (Entries.insertAll [] reported)) =
      (List.zip (input.filterMap StepDefinition.action?) reported).map fun (action, key, state) =>
        ⟨key, ⟨chain, action, chunk.number⟩, Report.flag? state⟩

section Report

variable {chain : UInt64} {number : UInt32}

/-- Entries whose keys are read one by one as the actions. -/
theorem filterMap_ofState? {actions : List UInt64} {reported : List (String × Value)}
    (read : List.Forall₂ (fun action entry =>
      StateId.decode? (Prod.fst entry) = some ⟨chain, action, number⟩) actions reported) :
    reported.filterMap Report.ofState? =
      (List.zip actions reported).map fun (action, key, state) =>
        ⟨key, ⟨chain, action, number⟩, Report.flag? state⟩ := by
  induction read with
  | nil => rfl
  | @cons action entry actions reported first _ ih =>
    have made : Report.ofState? entry =
        some ⟨entry.1, ⟨chain, action, number⟩, Report.flag? entry.2⟩ := by
      rw [Report.ofState?, first, Option.map_some, Report.result?_eq]
    rw [List.filterMap_cons, made, ih]
    rfl

theorem filterMap_ofState?_of_none {reported : List (String × Value)}
    (foreign : ∀ entry ∈ reported, StateId.decode? entry.1 = none) :
    reported.filterMap Report.ofState? = [] := by
  rw [List.filterMap_eq_nil_iff]
  intro entry mem
  rw [Report.ofState?, foreign entry mem, Option.map_none]

def HasIdOf (chain : UInt64) (number : UInt32) (action : UInt64) (s : State) : Prop :=
  s.id = StateId.ofCoordinates ⟨chain, action, number⟩

/-- Keys that tell different actions differ from each other, and from those that tell nothing. -/
theorem nodup_keys {actions : List UInt64} (nodup : actions.Nodup) {first last : List (String × Value)}
    (read : List.Forall₂ (fun action entry =>
      StateId.decode? (Prod.fst entry) = some ⟨chain, action, number⟩) actions first)
    (foreign : ∀ entry ∈ last, StateId.decode? entry.1 = none) (one : last.length ≤ 1) :
    (Entries.keys (first ++ last)).Nodup := by
  have coordinates_inj : Function.Injective fun action : UInt64 =>
      (some ⟨chain, action, number⟩ : Option Coordinates) := by
    intro a b same
    exact congrArg Coordinates.action (Option.some.inj same)
  have read_first : first.map (fun entry => StateId.decode? entry.1) =
      actions.map fun action => some ⟨chain, action, number⟩ := by
    induction read with
    | nil => rfl
    | cons head _ ih =>
      rw [List.map_cons, List.map_cons, head, ih (List.nodup_cons.mp nodup).2]
  have read_last : ∀ found ∈ last.map (fun entry => StateId.decode? entry.1), found = none := by
    intro found mem
    obtain ⟨entry, here, rfl⟩ := List.mem_map.mp mem
    exact foreign entry here
  have one_last : (last.map fun entry => StateId.decode? entry.1).Nodup := by
    match last, one with
    | [], _ => exact .nil
    | [entry], _ => exact List.nodup_singleton _
  refine List.Nodup.of_map StateId.decode? ?_
  rw [Entries.keys, List.map_map, List.map_append, List.nodup_append]
  refine ⟨?_, one_last, ?_⟩
  · exact read_first ▸ nodup.map coordinates_inj
  · rintro found mem other mem_other rfl
    have in_actions : found ∈ actions.map fun action => some ⟨chain, action, number⟩ :=
      read_first ▸ mem
    obtain ⟨action, -, rfl⟩ := List.mem_map.mp in_actions
    cases read_last _ mem_other

end Report

section Compiled

variable {place : Place}

/-- One step of a chunk: its id is that of its action in the chunk. -/
theorem hasIdOf_of_compiled {definition : StepDefinition} (derived : definition.ownId? = none)
    {step : Step} (compiled : Step.Compiled place (definition.toStep place.chain) step) :
    (definition.action? = none ∧ step = .rebootMark) ∨
    ∃ action s, definition.action? = some action ∧ step = .state s ∧
      HasIdOf place.chain place.chunk action s := by
  rcases definition.toStep_of_derived derived place.chain with ⟨mark, eq⟩ | ⟨action, s, of, eq, id⟩
  · rw [eq] at compiled
    cases compiled
    exact .inl ⟨mark, rfl⟩
  · rw [eq] at compiled
    cases compiled with
    | @state _ t _ placed _ _ _ => exact .inr ⟨action, t, of, rfl, by rw [HasIdOf, placed, id]; rfl⟩

variable {input : List StepDefinition} {steps : List Step}
  (derived : ∀ definition ∈ input, definition.ownId? = none)
  (compiled : List.Forall₂ (Step.Compiled place) (input.map (StepDefinition.toStep place.chain)) steps)

include derived compiled

theorem forall₂_steps : List.Forall₂ (fun definition step =>
    match StepDefinition.action? definition with
    | some action => ∃ s, step = Step.state s ∧ HasIdOf place.chain place.chunk action s
    | none => step = .rebootMark) input steps := by
  refine ((List.forall₂_and_left input steps).mpr
    ⟨derived, List.forall₂_map_left_iff.mp compiled⟩).imp ?_
  rintro definition step ⟨derived, compiled⟩
  rcases hasIdOf_of_compiled derived compiled with ⟨mark, eq⟩ | ⟨action, s, of, eq, id⟩
  · rw [mark]
    exact eq
  · rw [of]
    exact ⟨s, eq, id⟩

/-- The states of a chunk have the ids of its actions, one by one. -/
theorem forall₂_states : List.Forall₂ (HasIdOf place.chain place.chunk)
    (input.filterMap StepDefinition.action?) (steps.filterMap Step.state?) := by
  have both := forall₂_steps derived compiled
  clear derived compiled
  induction both with
  | nil => exact .nil
  | @cons definition step input steps first _ ih =>
    cases of : definition.action? with
    | none =>
      rw [of] at first
      obtain rfl : step = .rebootMark := first
      rwa [List.filterMap_cons_none of, List.filterMap_cons_none rfl]
    | some action =>
      rw [of] at first
      obtain ⟨s, rfl, id⟩ : ∃ s, step = Step.state s ∧ HasIdOf place.chain place.chunk action s := first
      rw [List.filterMap_cons_some of, List.filterMap_cons_some (rfl : Step.state? (.state s) = some s)]
      exact .cons id ih

end Compiled

/-- What is reported on the continuation is one entry at most, and nobody's. -/
theorem foreign_continuation {continuation : Option State} (next : ∀ c ∈ continuation, c.id = nextId)
    {last : List (String × Value)} (all : List.Forall₂ State.ReportedAs continuation.toList last) :
    (∀ entry ∈ last, StateId.decode? entry.1 = none) ∧ last.length ≤ 1 := by
  cases continuation with
  | none =>
    cases all
    exact ⟨fun _ mem => absurd mem List.not_mem_nil, Nat.zero_le 1⟩
  | some c =>
    obtain ⟨entry, rest, ⟨name, function, foreign_name, foreign_function, key⟩, nothing, rfl⟩ :=
      List.forall₂_cons_left_iff.mp all
    obtain rfl := List.forall₂_nil_left_iff.mp nothing
    refine ⟨?_, Nat.le_refl 1⟩
    intro other mem
    obtain rfl := List.mem_singleton.mp mem
    rw [key, next c rfl]
    exact StateId.decode?_key_nextId c.task foreign_name foreign_function

theorem readBackFrom {input : List StepDefinition} {chunk : Chunk}
    (derived : ∀ definition ∈ input, definition.ownId? = none)
    (compiled : List.Forall₂ (Step.Compiled chunk.place) (input.map (StepDefinition.toStep chunk.chain))
      chunk.steps)
    (next : ∀ c ∈ chunk.continuation, c.id = nextId) : ReadBackFrom chunk.chain input chunk where
  steps := by
    refine (forall₂_steps derived compiled).imp ?_
    intro definition step h
    cases of : definition.action? with
    | none =>
      rw [of] at h
      exact h
    | some action =>
      rw [of] at h
      obtain ⟨s, rfl, id⟩ : ∃ s, step = Step.state s ∧ HasIdOf chunk.chain chunk.number action s := h
      refine ⟨s, rfl, fun name function foreign_name foreign_function => ?_⟩
      rw [id]
      exact StateId.decode?_key s.task foreign_name foreign_function _
  continuation := by
    intro c hc name function foreign_name foreign_function
    rw [next c hc]
    exact StateId.decode?_key_nextId c.task foreign_name foreign_function
  report := by
    intro nodup reported all
    rw [filterMap_documentSteps] at all
    obtain ⟨first, last, rfl, of_steps, of_continuation⟩ := forall₂_append_left all
    have read : List.Forall₂ (fun action entry =>
        StateId.decode? (Prod.fst entry) = some ⟨chunk.chain, action, chunk.number⟩)
        (input.filterMap StepDefinition.action?) first := by
      refine (forall₂_comp (forall₂_states derived compiled) of_steps).imp ?_
      rintro action entry ⟨s, id, name, function, foreign_name, foreign_function, key⟩
      rw [key, id]
      exact StateId.decode?_key s.task foreign_name foreign_function _
    obtain ⟨foreign, one⟩ := foreign_continuation next of_continuation
    have whole : Entries.insertAll [] (first ++ last) = first ++ last :=
      Entries.insertAll_of_nodup (nodup_keys nodup read foreign one)
    have length := read.length_eq
    have zipped : List.zip (input.filterMap StepDefinition.action?) (first ++ last) =
        List.zip (input.filterMap StepDefinition.action?) first := by
      exact zip_append_of_length_eq length last
    refine ⟨by simp [length], ?_⟩
    rw [whole, zipped, ← filterMap_ofState? read]
    change (first ++ last).filterMap Report.ofState? = _
    rw [List.filterMap_append, filterMap_ofState?_of_none foreign, List.append_nil]

end Chunk

/-- The key of every id tells its coordinates, and a report on a compiled chain file is read back: each
state of a chunk as its action in that chunk, and nothing else. -/
theorem compile_reads_back (file : ChainFile) (target : Target)
    (derived : ∀ definition ∈ file.steps, definition.ownId? = none) :
    (∀ (task : Task) (c : Coordinates) (name function : String), StateId.Foreign name →
      StateId.Foreign function →
      StateId.decode? (StateId.key task.stateModule (StateId.ofCoordinates c) name function) =
        some c) ∧
    ∃ inputs : List (List StepDefinition), inputs.flatten = file.steps ∧
      List.Forall₂ (Chunk.ReadBackFrom file.id) inputs (compile ⟨file.id, target, file.toSteps⟩) := by
  refine ⟨fun task c _ _ name function => StateId.decode?_key task name function c, ?_⟩
  obtain ⟨inputs, flat, cuts⟩ := exists_pieces_of_map
    (flatten_segments (file.steps.map (StepDefinition.toStep file.id)))
  refine ⟨inputs, flat, ?_⟩
  have placed := placedFrom_compile ⟨file.id, target, file.toSteps⟩
  change List.Forall₂ _ (segments (file.steps.map (StepDefinition.toStep file.id))) _ at placed
  rw [cuts, List.forall₂_map_left_iff] at placed
  have pieces : ∀ input ∈ inputs, ∀ definition ∈ input, definition.ownId? = none := by
    intro input mem definition inside
    exact derived definition (flat ▸ List.mem_flatten_of_mem mem inside)
  refine ((List.forall₂_and_left inputs _).mpr ⟨pieces, placed⟩).imp ?_
  rintro input chunk ⟨derived, placed⟩
  have compiled := placed.compiled
  have chain : chunk.chain = file.id := placed.chain_eq
  rw [← chain] at compiled ⊢
  exact Chunk.readBackFrom derived compiled placed.next

/-- A chain file with every kind of step, large numbers and no ids of its own. -/
def mixedFile : ChainFile where
  id := 18446744073709551615
  steps :=
    [.script 12 none "exit 0" (some "root") none, .run 3 none "pkg.install" [("name", .text "vim")] none,
      .reboot 18446744073709551614 none 5, .rebootMark, .run 3 none "test.ping" [] (some [])]

theorem compile_reads_back_mixedFile :
    (∀ definition ∈ mixedFile.steps, definition.ownId? = none) ∧
    (∀ (task : Task) (c : Coordinates) (name function : String), StateId.Foreign name →
      StateId.Foreign function →
      StateId.decode? (StateId.key task.stateModule (StateId.ofCoordinates c) name function) =
        some c) ∧
    ∃ inputs : List (List StepDefinition), inputs.flatten = mixedFile.steps ∧
      List.Forall₂ (Chunk.ReadBackFrom mixedFile.id) inputs
        (compile ⟨mixedFile.id, ⟨"node", "m1"⟩, mixedFile.toSteps⟩) := by
  have derived : ∀ definition ∈ mixedFile.steps, definition.ownId? = none := by
    simp [mixedFile, StepDefinition.ownId?]
  exact ⟨derived, compile_reads_back mixedFile ⟨"node", "m1"⟩ derived⟩

end ChunkedChain
