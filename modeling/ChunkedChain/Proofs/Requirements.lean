import ChunkedChain.Proofs.Chunking
import ChunkedChain.Proofs.Naming

/-!
# Requirements inside a chunk

The steps of a chunk form one line: the first one keeps its requisites, every later one requires the
step right before it under the id that this step has in the document, and the continuation requires the
last of them. No requisite that is added names a state of another chunk, since the id of a state tells
its chunk.
-/

namespace ChunkedChain

namespace Chunk

/-- The chunk is made of `input`, with each step linked to the one right before it. -/
structure LinkedFrom (input : List Step) (chunk : Chunk) : Prop where
  compiled : List.Forall₂ (Step.Compiled chunk.place) input chunk.steps
  /-- Nothing stands after a mark. -/
  mark_last : ∀ before after, chunk.steps = before ++ .rebootMark :: after → after = []
  first : chunk.steps.head?.bind Step.requisites? = input.head?.bind Step.requisites?
  /-- Every later state requires the placed state right before it, at the end of its requisites unless
  it did so already. -/
  later : ∀ i s t, input[i + 1]? = some (.state s) → chunk.steps[i + 1]? = some (.state t) →
    ∃ q, input[i]? = some (.state q) ∧ ∃ p, chunk.steps[i]? = some (.state p) ∧
      p.id = q.id ++ StateId.chunkSuffix chunk.number ∧
      t.requisites.toList =
        if p.requirement ∈ s.requisites.toList then s.requisites.toList
        else s.requisites.toList ++ [p.requirement]
  /-- The continuation requires the last state, if the chunk has one. -/
  continuation : ∀ c ∈ chunk.continuation,
    (chunk.steps = [.rebootMark] ∧ c.requisites.toList = []) ∨
    ∃ p, (chunk.steps.filterMap Step.state?).getLast? = some p ∧ c.requisites.toList = [p.requirement]
  /-- The name by which a state is referred to is read off its body, without the empty module name. -/
  named : ∀ p, Step.state p ∈ chunk.documentSteps →
    StateRef.of? (.state p) = some ⟨p.task.stateModule, p.id⟩ ∧ StateRef.log (.state p) = []

/-- The requisite is new on one of the chunk's states, or stands on its continuation. -/
def Adds (input : List Step) (chunk : Chunk) (requisite : Requisite) : Prop :=
  (∃ (i : Nat) (s t : State), input[i]? = some (Step.state s) ∧ chunk.steps[i]? = some (Step.state t) ∧
    requisite ∈ t.requisites.toList ∧ requisite ∉ s.requisites.toList) ∨
  ∃ c ∈ chunk.continuation, requisite ∈ c.requisites.toList

theorem continuationAfter_requisites (place : Place) {steps : List Step} {c : State}
    (h : c ∈ continuationAfter place steps) :
    c.requisites.toList =
      ((steps.filterMap Step.state?).getLast?.map State.requirement).toList := by
  rw [continuationAfter_eq] at h
  obtain rfl := Option.some.inj h
  cases (steps.filterMap Step.state?).getLast? with
  | none => rfl
  | some p =>
    rw [State.follow_some_requisites]
    simp [asksFor, Requisites.empty]

theorem steps_ofSegment (place : Place) (closed : Bool) {marks : List Step} (mark : AtMostMark marks)
    (states : List State) :
    (ofSegment place closed (states.map Step.state ++ marks)).steps =
      (place.linkStates none states).map Step.state ++ marks :=
  place.placeSteps_append_marks mark states

/-- The continuation of linked states and a mark requires the last state. -/
theorem continuation_requires (place : Place) {closed : Bool} {marks : List Step}
    (mark : AtMostMark marks) {states : List State}
    (full : closed = true → states.map Step.state ++ marks ≠ []) {c : State}
    (hc : c ∈ (ofSegment place closed (states.map Step.state ++ marks)).continuation) :
    ((place.linkStates none states).map Step.state ++ marks = [.rebootMark] ∧
      c.requisites.toList = []) ∨
    ∃ p, (place.linkStates none states).getLast? = some p ∧ c.requisites.toList = [p.requirement] := by
  cases closed with
  | false => cases hc
  | true =>
    have requires := continuationAfter_requisites place hc
    rw [place.placeSteps_append_marks mark, filterMap_state_append mark] at requires
    rw [requires]
    cases last : (place.linkStates none states).getLast? with
    | some p => exact .inr ⟨p, rfl, rfl⟩
    | none =>
      have linked_nil := List.getLast?_eq_none_iff.mp last
      have states_nil : states = [] := by
        rw [← List.length_eq_zero_iff, ← place.length_linkStates none, linked_nil, List.length_nil]
      have only_mark : marks = [.rebootMark] := by
        rcases mark with rfl | rfl
        · exact absurd (by simp [states_nil]) (full rfl)
        · rfl
      exact .inl ⟨by simp [linked_nil, only_mark], rfl⟩

theorem linkedFrom_ofSegment (place : Place) {closed : Bool} {segment : List Step}
    (marked : MarkLast segment) (full : closed = true → segment ≠ []) :
    LinkedFrom segment (ofSegment place closed segment) := by
  have placed := place.markLast_placeSteps marked
  obtain ⟨states, marks, mark, rfl⟩ := marked
  have steps_eq := steps_ofSegment place closed mark states
  refine ⟨place.forall₂_placeSteps none _, ?_, ?_, ?_, ?_, ?_⟩
  · intro before after eq
    have marked_steps : MarkLast (before ++ .rebootMark :: after) := eq ▸ placed
    exact marked_steps.after_mark
  · rw [steps_eq]
    cases states with
    | nil => rfl
    | cons state rest => rfl
  · intro i s t at_input at_steps
    rw [steps_eq, getElem?_state_append mark] at at_steps
    rw [getElem?_state_append mark] at at_input
    obtain ⟨q, at_q, p, at_p, id, -, linked⟩ := place.getElem?_linkStates_succ none at_input
    obtain rfl : place.placeState (s.follow (some p)) = t :=
      Option.some.inj (linked.symm.trans at_steps)
    refine ⟨q, (getElem?_state_append mark states i q).mpr at_q, p, ?_, id, ?_⟩
    · rw [steps_eq]
      exact (getElem?_state_append mark _ i p).mpr at_p
    · exact State.follow_some_requisites p s
  · intro c hc
    rw [steps_eq, filterMap_state_append mark]
    exact continuation_requires place mark full hc
  · intro p _
    exact ⟨Step.of?_state p, Step.log_reference _⟩

/-- An added requisite is on a state of the same chunk. -/
theorem LinkedFrom.exists_of_adds {input : List Step} {chunk : Chunk} (linked : LinkedFrom input chunk)
    {r : Requisite} (adds : Adds input chunk r) :
    ∃ p, Step.state p ∈ chunk.steps ∧ r = p.requirement := by
  rcases adds with ⟨i, s, t, at_input, at_steps, mem, new⟩ | ⟨c, hc, mem⟩
  · cases i with
    | zero =>
      have same := linked.first
      rw [List.head?_eq_getElem?, List.head?_eq_getElem?, at_input, at_steps] at same
      have same : t.requisites = s.requisites := Option.some.inj same
      exact absurd (same ▸ mem) new
    | succ i =>
      obtain ⟨q, -, p, at_p, -, eq⟩ := linked.later i s t at_input at_steps
      rw [eq] at mem
      split at mem
      · exact absurd mem new
      · rcases List.mem_append.mp mem with old | last
        · exact absurd old new
        · exact ⟨p, List.mem_of_getElem? at_p, List.mem_singleton.mp last⟩
  · rcases linked.continuation c hc with ⟨-, none⟩ | ⟨p, last, one⟩
    · rw [none] at mem
      cases mem
    · rw [one] at mem
      exact ⟨p, mem_filterMap_state?.mp (List.mem_of_getLast? last), List.mem_singleton.mp mem⟩

theorem LinkedFrom.id_of_mem {input : List Step} {chunk : Chunk} (linked : LinkedFrom input chunk)
    {p : State} (h : Step.state p ∈ chunk.steps) :
    ∃ id, p.id = id ++ StateId.chunkSuffix chunk.number := by
  obtain ⟨i, at_i⟩ := List.mem_iff_getElem?.mp h
  obtain ⟨step, -, compiled⟩ := forall₂_exists_left linked.compiled at_i
  cases compiled with
  | state id _ _ _ => exact ⟨_, id⟩

end Chunk

theorem linkedFrom_compile (chain : Chain) :
    List.Forall₂ Chunk.LinkedFrom (segments chain.steps) (compile chain) := by
  refine forall₂_compile chain fun i segment at_i => ?_
  refine Chunk.linkedFrom_ofSegment _ (markLast_segments at_i) fun closed => ?_
  have more : i + 1 < (segments chain.steps).length := by
    have := of_decide_eq_true closed
    rw [chain.length_segments]
    omega
  exact ((cut_segments chain.steps).closed_of_lt at_i more).ne_nil

theorem continuation_id_compile {chain : Chain} {chunk : Chunk} (h : chunk ∈ compile chain) {c : State}
    (hc : c ∈ chunk.continuation) : c.id = Chunk.nextId := by
  obtain ⟨segment, placed⟩ := exists_placedFrom h
  exact placed.next c hc

/-- Every chunk of a compiled chain links its steps one after the other, and nothing else. -/
theorem compile_links_predecessors (chain : Chain) (bound : chain.splits ≤ UInt32.size - 2) :
    ∃ inputs : List (List Step), inputs.flatten = chain.steps ∧
      List.Forall₂ Chunk.LinkedFrom inputs (compile chain) ∧
      ∀ (i j : Nat) (input : List Step) (chunk other : Chunk), inputs[i]? = some input →
        (compile chain)[i]? = some chunk → (compile chain)[j]? = some other → i ≠ j →
        ∀ r, Chunk.Adds input chunk r → ∀ q, Step.state q ∈ other.documentSteps → q.id ≠ r.id := by
  have linked := linkedFrom_compile chain
  have bound := chain.splits_add_two_le bound
  refine ⟨segments chain.steps, flatten_segments _, linked, ?_⟩
  intro i j input chunk other at_input at_i at_j apart r adds q member same
  obtain ⟨input_i, at_i_input, linked_i⟩ := forall₂_exists_left linked at_i
  obtain rfl : input = input_i := Option.some.inj (at_input.symm.trans at_i_input)
  obtain ⟨p, p_mem, rfl⟩ := linked_i.exists_of_adds adds
  obtain ⟨id, id_p⟩ := linked_i.id_of_mem p_mem
  have same : q.id = id ++ StateId.chunkSuffix chunk.number := same.trans id_p
  rcases List.mem_append.mp member with here | next
  · obtain ⟨_, -, linked_j⟩ := forall₂_exists_left linked at_j
    obtain ⟨id_other, id_q⟩ := linked_j.id_of_mem here
    have number := (StateId.append_chunkSuffix_inj (id_q.symm.trans same)).2
    have number_i := number_compile bound at_i
    have number_j := number_compile bound at_j
    rw [number, number_i] at number_j
    omega
  · have next : other.continuation = some q := by simpa using next
    have id_q := continuation_id_compile (List.mem_of_getElem? at_j) next
    exact StateId.append_chunkSuffix_ne_nextId id chunk.number (same.symm.trans id_q)

theorem compile_links_mixedReboots :
    mixedReboots.splits ≤ UInt32.size - 2 ∧
      ∃ inputs : List (List Step), inputs.flatten = mixedReboots.steps ∧
        List.Forall₂ Chunk.LinkedFrom inputs (compile mixedReboots) ∧
        ∀ (i j : Nat) (input : List Step) (chunk other : Chunk), inputs[i]? = some input →
          (compile mixedReboots)[i]? = some chunk → (compile mixedReboots)[j]? = some other → i ≠ j →
          ∀ r, Chunk.Adds input chunk r → ∀ q, Step.state q ∈ other.documentSteps → q.id ≠ r.id :=
  ⟨splits_mixedReboots, compile_links_predecessors mixedReboots splits_mixedReboots⟩

end ChunkedChain
