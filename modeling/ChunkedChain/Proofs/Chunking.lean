import ChunkedChain.Proofs.Splitter

/-!
# Chunks of a chain

`Chain.Chunking` says what it is for a list of chunks to be a chain cut at its reboots: numbers from 1
on, one compiled step for each step, cuts exactly after the steps that end their chunk, and a
continuation in every chunk but the last. A run follows the continuations: it applies the chunk with
the number it was asked for and goes on with the number that the chunk's continuation asks for.
-/

namespace ChunkedChain

/-- The chunks are the chain, cut after every step that ends its chunk. -/
structure Chain.Chunking (chain : Chain) (chunks : List Chunk) : Prop where
  /-- The numbers run from 1, and there is one more of them than cuts. -/
  numbers : chunks.map (fun chunk => chunk.number.toNat) = List.range' 1 (chain.splits + 1)
  /-- One after the other, the chunks hold one compiled step for each step. -/
  compiled : List.Forall₂ (fun input (output : Place × Step) => Step.Compiled output.1 input output.2)
    chain.steps (chunks.flatMap fun chunk => chunk.steps.map (Prod.mk chunk.place))
  closed : ∀ chunk ∈ chunks.dropLast, ClosedSegment chunk.steps
  /-- The continuation asks for the next number. -/
  continued : ∀ chunk ∈ chunks.dropLast, ∃ requisites, chunk.continuation = some
    { id := "schedule_next_chunk"
      task := .run "mgractionchains.next"
        [("actionchain_id", .int chain.id.toNat), ("chunk", .int (chunk.number.toNat + 1))] none
      requisites }
  ended : ∀ chunk ∈ chunks.getLast?, OpenSegment chunk.steps ∧ chunk.continuation = none
  /-- The last chunk is empty exactly if the chain is, or ends with a step that ends its chunk. -/
  empty_iff : ∀ chunk ∈ chunks.getLast?,
    chunk.steps = [] ↔ ∀ step ∈ chain.steps.getLast?, step.endsChunk = true

namespace Chunk

def next? (chunk : Chunk) : Option Int :=
  match chunk.continuation with
  | some ⟨_, .run _ args _, _⟩ =>
    match Entries.get? "chunk" args with
    | some (.int number) => some number
    | _ => none
  | _ => none

/-- A run that is asked for `number` visits these chunks, and then it is not asked to go on. -/
inductive Visits (chunks : List Chunk) : (number : Int) → List Chunk → Prop where
  | stop {chunk : Chunk} : chunk ∈ chunks → chunk.next? = none →
      Visits chunks chunk.number.toNat [chunk]
  | goOn {chunk : Chunk} {next : Int} {rest : List Chunk} : chunk ∈ chunks →
      chunk.next? = some next → Visits chunks next rest →
      Visits chunks chunk.number.toNat (chunk :: rest)

theorem drop_of_getElem? {chunks : List Chunk} {i : Nat} {chunk : Chunk}
    (at_i : chunks[i]? = some chunk) : chunks.drop i = chunk :: chunks.drop (i + 1) := by
  obtain ⟨h, rfl⟩ := List.getElem?_eq_some_iff.mp at_i
  exact List.drop_eq_getElem_cons h

section Visits

variable {chunks : List Chunk}
  (number : ∀ i chunk, chunks[i]? = some chunk → chunk.number.toNat = i + 1)
  (next : ∀ i chunk, chunks[i]? = some chunk →
    chunk.next? = if i + 1 < chunks.length then some (i + 2 : Int) else none)

include number next

theorem Visits.eq_drop {n : Int} {visited : List Chunk} (visits : Visits chunks n visited) {i : Nat}
    (hn : n = i + 1) : visited = chunks.drop i := by
  induction visits generalizing i with
  | @stop chunk member none_next =>
    obtain ⟨j, at_j⟩ := List.mem_iff_getElem?.mp member
    have := number j chunk at_j
    obtain rfl : i = j := by omega
    have last : ¬ i + 1 < chunks.length := by
      intro more
      rw [next i chunk at_j, if_pos more] at none_next
      cases none_next
    rw [drop_of_getElem? at_j, List.drop_of_length_le (by omega)]
  | @goOn chunk m rest member asks _ ih =>
    obtain ⟨j, at_j⟩ := List.mem_iff_getElem?.mp member
    have := number j chunk at_j
    obtain rfl : i = j := by omega
    rw [next i chunk at_j] at asks
    split at asks
    · obtain rfl : (i + 2 : Int) = m := Option.some.inj asks
      rw [drop_of_getElem? at_j, ih (i := i + 1) (by omega)]
    · cases asks

theorem visits_drop {i : Nat} (h : i < chunks.length) :
    Visits chunks (i + 1 : Int) (chunks.drop i) := by
  have at_i : chunks[i]? = some chunks[i] := List.getElem?_eq_getElem h
  have number_i : (i + 1 : Int) = chunks[i].number.toNat := by
    have := number i _ at_i
    omega
  have next_i := next i _ at_i
  have member : chunks[i] ∈ chunks := List.getElem_mem h
  rw [drop_of_getElem? at_i, number_i]
  by_cases more : i + 1 < chunks.length
  · rw [if_pos more] at next_i
    have rest := visits_drop more
    rw [Int.natCast_add_one, Int.add_assoc] at rest
    exact .goOn member next_i rest
  · rw [if_neg more] at next_i
    rw [List.drop_of_length_le (by omega)]
    exact .stop member next_i
termination_by chunks.length - i

/-- A run that is asked for the number of one chunk visits this one and all later ones. -/
theorem visits_iff {i : Nat} (h : i < chunks.length) (visited : List Chunk) :
    Visits chunks (i + 1 : Int) visited ↔ visited = chunks.drop i := by
  constructor
  · intro visits
    exact visits.eq_drop number next rfl
  · rintro rfl
    exact visits_drop number next h

end Visits

theorem continuationAfter_eq (place : Place) (steps : List Step) :
    continuationAfter place steps =
      some ((asksFor place.chain (place.chunk + 1)).follow (steps.filterMap Step.state?).getLast?) := by
  rw [continuationAfter, Step.lastReal?_eq, Step.after_state]
  rfl

theorem follow_asksFor (previous : Option State) (chain : UInt64) (next : UInt32) :
    ∃ requisites, (asksFor chain next).follow previous =
      { id := "schedule_next_chunk"
        task := .run "mgractionchains.next"
          [("actionchain_id", .int chain.toNat), ("chunk", .int next.toNat)] none
        requisites } :=
  ⟨_, State.follow_eq previous (asksFor chain next)⟩

/-- The chunk is one of the chain on its machine, its steps are those of `input` in their place, and
nothing but a state of that name asks for the next one. -/
structure PlacedFrom (chain : Chain) (input : List Step) (chunk : Chunk) : Prop where
  chain_eq : chunk.chain = chain.id
  machine_eq : chunk.machine = chain.target.machine
  compiled : List.Forall₂ (Step.Compiled chunk.place) input chunk.steps
  next : ∀ c ∈ chunk.continuation, c.id = nextId

end Chunk

theorem placedFrom_compile (chain : Chain) :
    List.Forall₂ (Chunk.PlacedFrom chain) (segments chain.steps) (compile chain) := by
  refine forall₂_compile chain fun i segment _ => ⟨rfl, rfl, Place.forall₂_placeSteps _ none segment, ?_⟩
  intro c hc
  rw [Chunk.ofSegment] at hc
  split at hc
  · rw [Chunk.continuationAfter_eq] at hc
    obtain rfl := Option.some.inj hc
    exact State.follow_id _ _
  · cases hc

theorem exists_placedFrom {chain : Chain} {chunk : Chunk} (h : chunk ∈ compile chain) :
    ∃ segment, Chunk.PlacedFrom chain segment chunk := by
  obtain ⟨i, at_i⟩ := List.mem_iff_getElem?.mp h
  obtain ⟨segment, -, placed⟩ := forall₂_exists_left (placedFrom_compile chain) at_i
  exact ⟨segment, placed⟩

/-- What stands at a position of a compiled chain: the number, the steps of one segment in their place,
and the continuation unless the chunk is the last one. -/
theorem compile_at {chain : Chain} {i : Nat} {chunk : Chunk} (h : (compile chain)[i]? = some chunk) :
    ∃ segment, (segments chain.steps)[i]? = some segment ∧ i ≤ chain.splits ∧
      chunk = Chunk.ofSegment (chain.placeAt i) (decide (i < chain.splits)) segment := by
  have bound := (List.getElem?_eq_some_iff.mp h).1
  rw [length_compile] at bound
  rw [getElem?_compile, Option.map_eq_some_iff] at h
  obtain ⟨segment, at_i, rfl⟩ := h
  exact ⟨segment, at_i, by omega, rfl⟩

theorem number_compile {chain : Chain} (bound : chain.splits + 2 ≤ UInt32.size) {i : Nat}
    {chunk : Chunk} (h : (compile chain)[i]? = some chunk) : chunk.number.toNat = i + 1 := by
  obtain ⟨segment, -, hi, rfl⟩ := compile_at h
  exact chain.toNat_placeAt (by omega)

theorem continuation_compile {chain : Chain} (bound : chain.splits + 2 ≤ UInt32.size) {i : Nat}
    {chunk : Chunk} (h : (compile chain)[i]? = some chunk) :
    if i < chain.splits then
      ∃ requisites, chunk.continuation = some
        { id := "schedule_next_chunk"
          task := .run "mgractionchains.next"
            [("actionchain_id", .int chain.id.toNat), ("chunk", .int (chunk.number.toNat + 1))] none
          requisites }
    else chunk.continuation = none := by
  obtain ⟨segment, -, -, rfl⟩ := compile_at h
  split
  · rename_i more
    have here := chain.toNat_placeAt (i := i) (by omega)
    have next : ((chain.placeAt i).chunk + 1).toNat = (chain.placeAt i).chunk.toNat + 1 :=
      toNat_add_one (by omega)
    obtain ⟨requisites, asks⟩ := Chunk.follow_asksFor
      (((chain.placeAt i).placeSteps none segment).filterMap Step.state?).getLast? chain.id
      ((chain.placeAt i).chunk + 1)
    refine ⟨requisites, ?_⟩
    simp only [Chunk.ofSegment, more, decide_true, if_true, Chunk.continuationAfter_eq]
    refine congrArg some (asks.trans ?_)
    rw [next]
    rfl
  · rename_i last
    simp [Chunk.ofSegment, last]

theorem next?_compile {chain : Chain} (bound : chain.splits + 2 ≤ UInt32.size) {i : Nat}
    {chunk : Chunk} (h : (compile chain)[i]? = some chunk) :
    chunk.next? = if i + 1 < (compile chain).length then some (i + 2 : Int) else none := by
  have number := number_compile bound h
  have continuation := continuation_compile bound h
  rw [length_compile]
  by_cases more : i < chain.splits
  · rw [if_pos more] at continuation
    obtain ⟨requisites, continuation⟩ := continuation
    rw [if_pos (by omega), Chunk.next?, continuation]
    simp [Entries.get?, number, Int.add_assoc]
  · rw [if_neg more] at continuation
    rw [if_neg (by omega), Chunk.next?, continuation]

theorem numbers_compile {chain : Chain} (bound : chain.splits + 2 ≤ UInt32.size) :
    (compile chain).map (fun chunk => chunk.number.toNat) = List.range' 1 (chain.splits + 1) := by
  refine List.ext_getElem ?_ ?_
  · rw [List.length_map, length_compile, List.length_range']
  · intro i h _
    rw [List.length_map] at h
    rw [List.getElem_map, number_compile bound (List.getElem?_eq_getElem h), List.getElem_range']
    omega

theorem Chunk.forall₂_ofSegments (place : Place) (cuts : List (List Step)) :
    List.Forall₂ (fun input (output : Place × Step) => Step.Compiled output.1 input output.2)
      cuts.flatten
      ((Chunk.ofSegments place cuts).flatMap fun chunk => chunk.steps.map (Prod.mk chunk.place)) := by
  have placed (place : Place) (closed : Bool) (segment : List Step) :
      List.Forall₂ (fun input (output : Place × Step) => Step.Compiled output.1 input output.2) segment
        ((Chunk.ofSegment place closed segment).steps.map
          (Prod.mk (Chunk.ofSegment place closed segment).place)) :=
    List.forall₂_map_right_iff.mpr (place.forall₂_placeSteps none segment)
  fun_induction Chunk.ofSegments place cuts with
  | case1 place => exact .nil
  | case2 place last => simpa using placed place false last
  | case3 place segment rest _ ih => exact List.rel_append (placed place true segment) ih

theorem mem_dropLast_compile {chain : Chain} {chunk : Chunk}
    (h : chunk ∈ (compile chain).dropLast) :
    ∃ i, i < chain.splits ∧ (compile chain)[i]? = some chunk := by
  obtain ⟨i, at_i⟩ := List.mem_iff_getElem?.mp h
  rw [List.getElem?_dropLast, length_compile] at at_i
  split at at_i
  · exact ⟨i, by omega, at_i⟩
  · cases at_i

theorem getLast?_compile {chain : Chain} {chunk : Chunk} (h : (compile chain).getLast? = some chunk) :
    (compile chain)[chain.splits]? = some chunk := by
  rwa [List.getLast?_eq_getElem?, length_compile] at h

theorem chunking_compile {chain : Chain} (bound : chain.splits + 2 ≤ UInt32.size) :
    chain.Chunking (compile chain) where
  numbers := numbers_compile bound
  compiled := by
    have compiled := Chunk.forall₂_ofSegments ⟨chain.id, chain.target.machine, 1⟩ (segments chain.steps)
    rwa [flatten_segments] at compiled
  closed := by
    intro chunk h
    obtain ⟨i, more, at_i⟩ := mem_dropLast_compile h
    obtain ⟨segment, cut_i, -, rfl⟩ := compile_at at_i
    have before_last : i + 1 < (segments chain.steps).length := by
      rw [chain.length_segments]
      omega
    exact ((cut_segments chain.steps).closed_of_lt cut_i before_last).placed (chain.placeAt i) none
  continued := by
    intro chunk h
    obtain ⟨i, more, at_i⟩ := mem_dropLast_compile h
    have continuation := continuation_compile bound at_i
    rwa [if_pos more] at continuation
  ended := by
    intro chunk h
    have at_last := getLast?_compile h
    have continuation := continuation_compile bound at_last
    rw [if_neg (Nat.lt_irrefl _)] at continuation
    obtain ⟨segment, cut_last, -, rfl⟩ := compile_at at_last
    have quiet := (cut_segments chain.steps).open_of_last cut_last chain.length_segments.symm
    exact ⟨quiet.placed (chain.placeAt chain.splits) none, continuation⟩
  empty_iff := by
    intro chunk h
    obtain ⟨segment, cut_last, -, rfl⟩ := compile_at (getLast?_compile h)
    have last : (segments chain.steps).getLast? = some segment := by
      rw [List.getLast?_eq_getElem?, chain.length_segments]
      exact cut_last
    rw [← (cut_segments chain.steps).last_eq_nil_iff last]
    change (chain.placeAt chain.splits).placeSteps none segment = [] ↔ segment = []
    rw [← List.length_eq_zero_iff, Place.length_placeSteps, List.length_eq_zero_iff]

/-- A chain whose cuts the 32-bit counter can count is cut without running out of numbers, into the
chunks that it should be cut into, and a run that starts with chunk 1 visits all of them in order. -/
theorem compile_cuts_chain (chain : Chain) (bound : chain.splits ≤ UInt32.size - 2) :
    Splitter.run? chain = some ((compile chain).map fun chunk => (chunk, chunk.scripts)) ∧
      chain.Chunking (compile chain) ∧
      ∀ visited, Chunk.Visits (compile chain) 1 visited ↔ visited = compile chain := by
  have bound := chain.splits_add_two_le bound
  refine ⟨?_, chunking_compile bound, ?_⟩
  · rw [Splitter.run?_eq, if_pos bound]
  · have first : 0 < (compile chain).length := by rw [length_compile]; omega
    exact Chunk.visits_iff (fun _ _ => number_compile bound) (fun _ _ => next?_compile bound) first

/-- A chain in which every kind of reboot occurs, at the start, next to each other and at the end, and
one state has the requisite already that it would get. -/
def mixedReboots : Chain where
  id := 7
  target := ⟨"node", "m1"⟩
  steps :=
    [.rebootMark, .state ⟨"a", .run "pkg.install" [("name", .text "vim")] none, .empty⟩,
      .state ⟨"b", .reboot 3, ⟨[⟨.require, "module", "a_chunk_2"⟩]⟩⟩,
      .state ⟨"c", .run "System.REBOOT" [] none, .empty⟩,
      .state ⟨"d", .script ⟨5, "exit 0", none, none, none⟩, .empty⟩, .rebootMark]

theorem splits_mixedReboots : mixedReboots.splits ≤ UInt32.size - 2 := by
  have four : mixedReboots.splits = 4 := by decide +kernel
  rw [four]
  decide

theorem compile_cuts_mixedReboots :
    mixedReboots.splits ≤ UInt32.size - 2 ∧
      Splitter.run? mixedReboots =
        some ((compile mixedReboots).map fun chunk => (chunk, chunk.scripts)) ∧
      mixedReboots.Chunking (compile mixedReboots) ∧
      ∀ visited, Chunk.Visits (compile mixedReboots) 1 visited ↔ visited = compile mixedReboots :=
  ⟨splits_mixedReboots, compile_cuts_chain mixedReboots splits_mixedReboots⟩

end ChunkedChain
