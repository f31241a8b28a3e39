import ChunkedChain.Proofs.DocumentOrder

/-!
# The keys of a chunk's document

A document has one key for each id that occurs among its steps, in the order in which the ids come first.
An id that is not repeated inside a chunk is the id of no other state in the whole chain, and never that
of a continuation. So a document loses a state only where the chain itself repeats an id inside one chunk.
-/

namespace ChunkedChain

theorem eraseDups_concat {α : Type} [BEq α] [LawfulBEq α] (xs : List α) (x : α) :
    (xs ++ [x]).eraseDups = if x ∈ xs then xs.eraseDups else xs.eraseDups ++ [x] := by
  rw [List.eraseDups_append]
  by_cases again : x ∈ xs
  · simp [List.removeAll, again]
  · have alone : [x].eraseDups = [x] := by
      rw [List.eraseDups_cons]
      rfl
    simp [List.removeAll, again, alone]

theorem nodup_eraseDups {α : Type} [BEq α] [LawfulBEq α] (xs : List α) : xs.eraseDups.Nodup := by
  induction xs using List.reverseRecOn with
  | nil => exact .nil
  | append_singleton xs x ih =>
    rw [eraseDups_concat]
    by_cases again : x ∈ xs
    · rw [if_pos again]
      exact ih
    · rw [if_neg again, ← List.concat_eq_append]
      exact ih.concat (mt List.mem_eraseDups.mp again)

/-- How many ids of the list come before in it. -/
def repetitions (ids : List String) : Nat := ids.zipIdx.countP fun entry => entry.1 ∈ ids.take entry.2

/-- The ids in a list that came in it before, one for each time they come again. -/
def repeatedIds (ids : List String) : List String :=
  (ids.zipIdx.filter fun entry => entry.1 ∈ ids.take entry.2).map Prod.fst

theorem length_repeatedIds (ids : List String) : (repeatedIds ids).length = repetitions ids := by
  rw [repeatedIds, repetitions, List.length_map, List.countP_eq_length_filter]

theorem repeatedIds_concat (ids : List String) (id : String) :
    repeatedIds (ids ++ [id]) = repeatedIds ids ++ if id ∈ ids then [id] else [] := by
  have earlier : (ids.zipIdx.filter fun entry => entry.1 ∈ (ids ++ [id]).take entry.2) =
      ids.zipIdx.filter fun entry => entry.1 ∈ ids.take entry.2 := by
    refine List.filter_congr fun entry mem => ?_
    have inside : entry.2 ≤ ids.length := by
      have := List.snd_lt_of_mem_zipIdx mem
      omega
    rw [List.take_append_of_le_length inside]
  rw [repeatedIds, List.zipIdx_append, List.filter_append, earlier, List.map_append, repeatedIds]
  by_cases again : id ∈ ids
  · simp [again]
  · simp [again]

theorem repetitions_concat (ids : List String) (id : String) :
    repetitions (ids ++ [id]) = repetitions ids + if id ∈ ids then 1 else 0 := by
  rw [← length_repeatedIds, ← length_repeatedIds, repeatedIds_concat, List.length_append]
  split_ifs <;> rfl

theorem repetitions_map {f : String → String} (injective : Function.Injective f) (ids : List String) :
    repetitions (ids.map f) = repetitions ids := by
  induction ids using List.reverseRecOn with
  | nil => rfl
  | append_singleton ids id ih =>
    rw [List.map_append, List.map_singleton, repetitions_concat, repetitions_concat, ih]
    simp only [List.mem_map_of_injective injective]

/-- Each id counts as a first appearance or as a repetition. -/
theorem length_eraseDups_add_repetitions (ids : List String) :
    ids.eraseDups.length + repetitions ids = ids.length := by
  induction ids using List.reverseRecOn with
  | nil => rfl
  | append_singleton ids id ih =>
    rw [eraseDups_concat, repetitions_concat, List.length_append, List.length_singleton]
    by_cases again : id ∈ ids
    · rw [if_pos again, if_pos again]
      omega
    · rw [if_neg again, if_neg again, List.length_append, List.length_singleton]
      omega

theorem repetitions_eq_zero_iff (ids : List String) : repetitions ids = 0 ↔ ids.Nodup := by
  induction ids using List.reverseRecOn with
  | nil => exact ⟨fun _ => .nil, fun _ => rfl⟩
  | append_singleton ids id ih =>
    have nodup_iff : (ids ++ [id]).Nodup ↔ ids.Nodup ∧ id ∉ ids := by
      rw [← List.concat_eq_append, List.nodup_concat, and_comm]
    rw [repetitions_concat, nodup_iff, ← ih]
    by_cases again : id ∈ ids
    · simp [again]
    · simp [again]

namespace Entries

variable {α : Type}

theorem keys_insert_of_mem {key : String} {value : α} {entries : Entries α} (h : key ∈ keys entries) :
    keys (insert key value entries) = keys entries := by
  induction entries with
  | nil => cases h
  | cons pair rest ih =>
    rw [insert]
    by_cases same : pair.1 = key
    · rw [if_pos same]
      rfl
    · have later : key ∈ keys rest := (List.mem_cons.mp h).resolve_left (Ne.symm same)
      rw [if_neg same]
      exact congrArg (pair.1 :: ·) (ih later)

theorem keys_insert (key : String) (value : α) (entries : Entries α) :
    keys (insert key value entries) =
      if key ∈ keys entries then keys entries else keys entries ++ [key] := by
  by_cases there : key ∈ keys entries
  · rw [if_pos there, keys_insert_of_mem there]
  · rw [if_neg there, insert_of_not_mem there, keys, List.map_append]
    rfl

end Entries

namespace Document

/-- The keys of a document are the ids of its steps, each where it comes first. -/
theorem keys_entries (steps : List Step) :
    Entries.keys (entries steps) = (steps.filterMap Step.id?).eraseDups := by
  rw [filterMap_id?, ← entries_filterMap]
  induction steps.filterMap Step.state? using List.reverseRecOn with
  | nil => rfl
  | append_singleton states s ih =>
    rw [List.map_append, List.map_singleton, entries_append_state, Entries.keys_insert, ih,
      List.map_append, List.map_singleton, eraseDups_concat]
    simp only [List.mem_eraseDups]

theorem length_entries_add_repetitions (steps : List Step) :
    (entries steps).length + repetitions (steps.filterMap Step.id?) =
      (steps.filterMap Step.state?).length := by
  have keys_length : (Entries.keys (entries steps)).length = (entries steps).length := List.length_map _
  rw [← keys_length, keys_entries, length_eraseDups_add_repetitions, filterMap_id?, List.length_map]

end Document

theorem Step.Compiled.id?_eq {place : Place} {input output : Step}
    (compiled : Step.Compiled place input output) :
    output.id? = input.id?.map (· ++ StateId.chunkSuffix place.chunk) := by
  cases compiled with
  | mark => rfl
  | state id _ _ _ => exact congrArg some id

namespace Chunk

/-- A state of the chain and what has become of it in the chunk at a position. -/
def Becomes (inputs : List (List Step)) (chunks : List Chunk) (i : Nat) (s placed : State) : Prop :=
  ∃ (input : List Step) (chunk : Chunk) (k : Nat), inputs[i]? = some input ∧ chunks[i]? = some chunk ∧
    input[k]? = some (.state s) ∧ chunk.steps[k]? = some (.state placed)

/-- The chunk is made of `input`, and its document has an entry less for each id that the input repeats. -/
structure DocumentedFrom (input : List Step) (chunk : Chunk) : Prop where
  ids : chunk.steps.map Step.id? =
    input.map fun step => step.id?.map fun id => id ++ ("_chunk_" ++ decimal chunk.number.toNat)
  ne_next : ∀ p, Step.state p ∈ chunk.steps → p.id ≠ "schedule_next_chunk"
  length_add_repetitions : (Document.entries chunk.documentSteps).length +
      repetitions (input.filterMap Step.id?) = (chunk.documentSteps.filterMap Step.state?).length
  length_lt_iff : (Document.entries chunk.documentSteps).length <
      (chunk.documentSteps.filterMap Step.state?).length ↔ ¬ (input.filterMap Step.id?).Nodup

theorem filterMap_id?_documentSteps (chunk : Chunk) :
    chunk.documentSteps.filterMap Step.id? =
      chunk.steps.filterMap Step.id? ++ (chunk.continuation.map State.id).toList := by
  rw [documentSteps, List.filterMap_append]
  cases chunk.continuation <;> rfl

namespace PlacedFrom

variable {chain : Chain} {input : List Step} {chunk : Chunk} (placed : PlacedFrom chain input chunk)

include placed

theorem filterMap_id? : chunk.steps.filterMap Step.id? =
    (input.filterMap Step.id?).map (· ++ StateId.chunkSuffix chunk.number) :=
  filterMap_of_forall₂ placed.compiled fun _ _ step => step.id?_eq

theorem nextId_not_mem : nextId ∉ chunk.steps.filterMap Step.id? := by
  rw [placed.filterMap_id?]
  intro mem
  obtain ⟨id, -, same⟩ := List.mem_map.mp mem
  exact StateId.append_chunkSuffix_ne_nextId id chunk.number same

/-- The continuation repeats no id. -/
theorem repetitions_documentSteps :
    repetitions (chunk.documentSteps.filterMap Step.id?) = repetitions (input.filterMap Step.id?) := by
  have steps : repetitions (chunk.steps.filterMap Step.id?) = repetitions (input.filterMap Step.id?) := by
    rw [placed.filterMap_id?]
    exact repetitions_map (fun _ _ same => (StateId.append_chunkSuffix_inj same).1) _
  rw [filterMap_id?_documentSteps]
  cases continuation : chunk.continuation with
  | none => simpa using steps
  | some c =>
    have new : c.id ∉ chunk.steps.filterMap Step.id? := placed.next c continuation ▸ placed.nextId_not_mem
    rw [Option.map_some, Option.toList_some, repetitions_concat, if_neg new, steps]
    rfl

theorem documentedFrom : DocumentedFrom input chunk := by
  have length := Document.length_entries_add_repetitions chunk.documentSteps
  rw [placed.repetitions_documentSteps] at length
  refine ⟨?_, ?_, length, ?_⟩
  · refine map_of_forall₂ placed.compiled fun _ _ step => ?_
    exact step.id?_eq
  · intro p mem same
    refine placed.nextId_not_mem (List.mem_filterMap.mpr ⟨.state p, mem, ?_⟩)
    exact congrArg some same
  · rw [← repetitions_eq_zero_iff]
    omega

end PlacedFrom

end Chunk

/-- The keys of a chunk's document are the ids of its steps, and that of the continuation if there is one. -/
theorem keys_compile {chain : Chain} (bound : chain.splits + 2 ≤ UInt32.size) {i : Nat} {chunk : Chunk}
    (h : (compile chain)[i]? = some chunk) :
    Entries.keys (Document.entries chunk.documentSteps) =
      (chunk.steps.filterMap Step.id?).eraseDups ++
        if i + 1 < (compile chain).length then ["schedule_next_chunk"] else [] := by
  obtain ⟨segment, placed⟩ := exists_placedFrom (List.mem_of_getElem? h)
  have continuation := continuation_compile bound h
  rw [Document.keys_entries, Chunk.filterMap_id?_documentSteps, length_compile]
  by_cases more : i < chain.splits
  · rw [if_pos more] at continuation
    obtain ⟨requisites, continuation⟩ := continuation
    rw [continuation, if_pos (by omega), Option.map_some, Option.toList_some, eraseDups_concat]
    exact if_neg placed.nextId_not_mem
  · rw [if_neg more] at continuation
    rw [continuation, if_neg (by omega), Option.map_none, Option.toList_none, List.append_nil,
      List.append_nil]

/-- The id of a placed state tells the id it had, and its chunk. -/
theorem Chunk.Becomes.id_eq {chain : Chain} (bound : chain.splits + 2 ≤ UInt32.size) {i : Nat}
    {s placed : State} (becomes : Becomes (segments chain.steps) (compile chain) i s placed) :
    ∃ number : UInt32, number.toNat = i + 1 ∧ placed.id = s.id ++ StateId.chunkSuffix number := by
  obtain ⟨input, chunk, k, at_input, at_chunk, at_s, at_placed⟩ := becomes
  obtain ⟨segment, at_segment, from_segment⟩ := forall₂_exists_left (placedFrom_compile chain) at_chunk
  obtain rfl := Option.some.inj (at_input.symm.trans at_segment)
  obtain ⟨step, at_step, compiled⟩ := forall₂_exists_left from_segment.compiled at_placed
  obtain rfl := Option.some.inj (at_s.symm.trans at_step)
  cases compiled with
  | state id _ _ _ => exact ⟨chunk.number, number_compile bound at_chunk, id⟩

/-- Two states of a compiled chain share an id only if they stand in one chunk and shared it before, and
none of them takes the name of a continuation. So the document of a chunk holds every id of its steps, and
it has fewer entries than states exactly if an id is repeated in the chunk. -/
theorem compile_tells_states_apart (chain : Chain) (bound : chain.splits ≤ UInt32.size - 2) :
    ∃ inputs : List (List Step), inputs.flatten = chain.steps ∧
      List.Forall₂ Chunk.DocumentedFrom inputs (compile chain) ∧
      (∀ (i j : Nat) (s t placed placed' : State), Chunk.Becomes inputs (compile chain) i s placed →
        Chunk.Becomes inputs (compile chain) j t placed' →
        (placed.id = placed'.id ↔ i = j ∧ s.id = t.id)) ∧
      ∀ (i : Nat) (chunk : Chunk), (compile chain)[i]? = some chunk →
        Entries.keys (Document.entries chunk.documentSteps) =
          (chunk.steps.filterMap Step.id?).eraseDups ++
            if i + 1 < (compile chain).length then ["schedule_next_chunk"] else [] := by
  have bound := chain.splits_add_two_le bound
  refine ⟨segments chain.steps, flatten_segments _, ?_, ?_, fun _ _ => keys_compile bound⟩
  · exact (placedFrom_compile chain).imp fun _ _ placed => placed.documentedFrom
  · intro i j s t placed placed' becomes becomes'
    obtain ⟨number, number_eq, id⟩ := becomes.id_eq bound
    obtain ⟨number', number_eq', id'⟩ := becomes'.id_eq bound
    rw [id, id']
    constructor
    · intro same
      obtain ⟨ids, rfl⟩ := StateId.append_chunkSuffix_inj same
      exact ⟨by omega, ids⟩
    · rintro ⟨rfl, ids⟩
      have numbers : number = number' := UInt32.toNat_inj.mp (number_eq.trans number_eq'.symm)
      rw [ids, numbers]

/-- Steps with ids that look like compiled ones, one of them twice in its chunk and once more after it. -/
def suffixedSteps : Chain where
  id := 1
  target := ⟨"node", "m1"⟩
  steps :=
    [.state ⟨"a", .run "test.ping" [] none, .empty⟩, .state ⟨"a_chunk_1", .run "test.ping" [] none, .empty⟩,
      .state ⟨"a", .run "test.true" [] none, .empty⟩, .rebootMark,
      .state ⟨"a", .run "test.ping" [] none, .empty⟩, .state ⟨"", .reboot 1, .empty⟩,
      .state ⟨"schedule_next_chunk", .run "test.ping" [] none, .empty⟩]

theorem compile_tells_suffixedSteps_apart :
    suffixedSteps.splits ≤ UInt32.size - 2 ∧
      ∃ inputs : List (List Step), inputs.flatten = suffixedSteps.steps ∧
        List.Forall₂ Chunk.DocumentedFrom inputs (compile suffixedSteps) ∧
        (∀ (i j : Nat) (s t placed placed' : State),
          Chunk.Becomes inputs (compile suffixedSteps) i s placed →
          Chunk.Becomes inputs (compile suffixedSteps) j t placed' →
          (placed.id = placed'.id ↔ i = j ∧ s.id = t.id)) ∧
        ∀ (i : Nat) (chunk : Chunk), (compile suffixedSteps)[i]? = some chunk →
          Entries.keys (Document.entries chunk.documentSteps) =
            (chunk.steps.filterMap Step.id?).eraseDups ++
              if i + 1 < (compile suffixedSteps).length then ["schedule_next_chunk"] else [] := by
  have bound : suffixedSteps.splits ≤ UInt32.size - 2 := by
    have two : suffixedSteps.splits = 2 := by decide +kernel
    rw [two]
    decide
  exact ⟨bound, compile_tells_states_apart suffixedSteps bound⟩

end ChunkedChain
