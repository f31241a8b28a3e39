import ChunkedChain.Proofs.Requirements
import Mathlib.Data.List.Induction

/-!
# References between steps

A requisite refers to a state by its id. Compiling puts a suffix on the ids and leaves the requisites that
a step came with as they are, so such a requisite refers to a state of its chunk only if it has been
written with the suffix. The requisite that compiling adds always does.
-/

namespace ChunkedChain

/-- Every requisite refers to a state that stands before its own, which `name` gives this id. -/
def RefersBack (name : State → String) (steps : List Step) : Prop :=
  ∀ before s after, steps = before ++ .state s :: after → ∀ r ∈ s.requisites.toList,
    ∃ t, Step.state t ∈ before ∧ r.module = t.task.stateModule ∧ r.id = name t

/-- Every requisite refers to a state that stands before its own in the chain with no step from there on
that ends its chunk. The names may depend on the number of the chunk. -/
def Chain.RefersBack (chain : Chain) (name : Nat → State → String) : Prop :=
  ∀ before s after, chain.steps = before ++ .state s :: after → ∀ r ∈ s.requisites.toList,
    ∃ front t back, before = front ++ .state t :: back ∧ OpenSegment (.state t :: back) ∧
      r.module = t.task.stateModule ∧ r.id = name (before.countP Step.endsChunk + 1) t

/-- The id that a state gets in the chunk with this number. -/
def State.idIn (number : Nat) (s : State) : String := s.id ++ "_chunk_" ++ decimal number

/-- The steps that the chunk still open holds when these have been taken. -/
def openPart (steps : List Step) : List Step :=
  steps.foldl (fun taken step => if step.endsChunk then [] else taken ++ [step]) []

theorem openPart_concat (steps : List Step) (step : Step) :
    openPart (steps ++ [step]) = if step.endsChunk then [] else openPart steps ++ [step] := by
  rw [openPart, List.foldl_append]
  rfl

theorem OpenSegment.openPart_eq {steps : List Step} (quiet : OpenSegment steps) :
    openPart steps = steps := by
  induction steps using List.reverseRecOn with
  | nil => rfl
  | append_singleton steps step ih =>
    have here : step.endsChunk = false := quiet step (by simp)
    rw [openPart_concat, if_neg (by simp [here]), ih fun s mem => quiet s (List.mem_append_left _ mem)]

/-- A closed segment leaves nothing to what comes after it. -/
theorem ClosedSegment.openPart_append {segment : List Step} (closed : ClosedSegment segment)
    (rest : List Step) : openPart (segment ++ rest) = openPart rest := by
  obtain ⟨before, final, rfl, ends, -⟩ := closed
  induction rest using List.reverseRecOn with
  | nil => rw [List.append_nil, openPart_concat, if_pos ends]; rfl
  | append_singleton rest step ih => rw [← List.append_assoc, openPart_concat, ih, openPart_concat]

/-- The last element of a list either is the one at which the list is cut, or comes after it. -/
theorem concat_eq_append_cons {α : Type} {xs front back : List α} {x y : α}
    (h : xs ++ [x] = front ++ y :: back) :
    (xs = front ∧ x = y ∧ back = []) ∨ ∃ rest, back = rest ++ [x] ∧ xs = front ++ y :: rest := by
  rcases List.eq_nil_or_concat back with rfl | ⟨rest, last, rfl⟩
  · obtain ⟨same, one⟩ := List.append_inj' h rfl
    exact .inl ⟨same, List.singleton_inj.mp one, rfl⟩
  · rw [List.concat_eq_append, ← List.cons_append, ← List.append_assoc] at h
    obtain ⟨same, one⟩ := List.append_inj' h rfl
    obtain rfl := List.singleton_inj.mp one
    exact .inr ⟨rest, List.concat_eq_append, same⟩

/-- A state is in the open part exactly if nothing from it on ends the chunk. -/
theorem mem_openPart {steps : List Step} {t : State} :
    Step.state t ∈ openPart steps ↔
      ∃ front back, steps = front ++ .state t :: back ∧ OpenSegment (.state t :: back) := by
  induction steps using List.reverseRecOn with
  | nil => simp [openPart]
  | append_singleton steps step ih =>
    rw [openPart_concat]
    by_cases ends : step.endsChunk = true
    · rw [if_pos ends]
      constructor
      · exact fun mem => absurd mem List.not_mem_nil
      · rintro ⟨front, back, split, quiet⟩
        have last : step ∈ Step.state t :: back := by
          rcases concat_eq_append_cons split with ⟨-, rfl, -⟩ | ⟨rest, rfl, -⟩ <;> simp
        exact absurd ends (by simp [quiet step last])
    · have still : step.endsChunk = false := Bool.eq_false_iff.mpr ends
      rw [if_neg ends, List.mem_append, ih, List.mem_singleton]
      constructor
      · rintro (⟨front, back, rfl, quiet⟩ | rfl)
        · refine ⟨front, back ++ [step], by simp, fun s mem => ?_⟩
          rcases List.mem_append.mp (List.cons_append.symm ▸ mem) with mem | mem
          · exact quiet s mem
          · exact List.mem_singleton.mp mem ▸ still
        · exact ⟨steps, [], rfl, .cons still .nil⟩
      · rintro ⟨front, back, split, quiet⟩
        rcases concat_eq_append_cons split with ⟨-, same, -⟩ | ⟨rest, rfl, before⟩
        · exact .inr same.symm
        · refine .inl ⟨front, rest, before, fun s mem => quiet s ?_⟩
          rw [← List.cons_append]
          exact List.mem_append_left _ mem

theorem OpenSegment.of_split {steps front back : List Step} (quiet : OpenSegment steps)
    (split : steps = front ++ back) : OpenSegment front := fun s mem =>
  quiet s (split ▸ List.mem_append_left _ mem)

/-- What comes before any step of a closed segment ends nothing. -/
theorem ClosedSegment.open_of_split {segment front back : List Step} {step : Step}
    (closed : ClosedSegment segment) (split : segment = front ++ step :: back) : OpenSegment front := by
  obtain ⟨before, final, rfl, -, quiet⟩ := closed
  rcases concat_eq_append_cons split with ⟨rfl, -, -⟩ | ⟨rest, -, rfl⟩
  · exact quiet
  · exact quiet.of_split rfl

/-- What holds of every step, the number of cuts before it and the steps since the last one holds of every
step in its segment, and the other way round. -/
theorem Cut.forall_iff {steps : List Step} {cuts : List (List Step)} (cut : Cut steps cuts)
    (P : Nat → List Step → Step → Prop) :
    (∀ before step after, steps = before ++ step :: after →
        P (before.countP Step.endsChunk) (openPart before) step) ↔
      ∀ i segment, cuts[i]? = some segment → ∀ front step back, segment = front ++ step :: back →
        P i front step := by
  induction cut generalizing P with
  | @last steps quiet =>
    have here {before after : List Step} {step : Step} (split : steps = before ++ step :: after) :
        P (before.countP Step.endsChunk) (openPart before) step ↔ P 0 before step := by
      have open_before := quiet.of_split split
      rw [open_before.countP_eq_zero, open_before.openPart_eq]
    constructor
    · intro h i segment at_i front step back split
      rcases i with _ | i
      · obtain rfl : steps = segment := by simpa using at_i
        exact (here split).mp (h front step back split)
      · simp at at_i
    · intro h before step after split
      exact (here split).mpr (h 0 steps rfl before step after split)
  | @closed segment rest others done cut ih =>
    have here {before after : List Step} {step : Step} (split : segment = before ++ step :: after) :
        P (before.countP Step.endsChunk) (openPart before) step ↔ P 0 before step := by
      have open_before := done.open_of_split split
      rw [open_before.countP_eq_zero, open_before.openPart_eq]
    have there (before : List Step) (step : Step) :
        P ((segment ++ before).countP Step.endsChunk) (openPart (segment ++ before)) step ↔
          P (before.countP Step.endsChunk + 1) (openPart before) step := by
      rw [List.countP_append, done.countP_eq_one, done.openPart_append, Nat.add_comm]
    constructor
    · intro h i other at_i front step back split
      rcases i with _ | i
      · obtain rfl : segment = other := by simpa using at_i
        refine (here split).mp (h front step (back ++ rest) ?_)
        rw [split, List.append_assoc, List.cons_append]
      · refine (ih fun i => P (i + 1)).mp (fun before step after split => ?_) i other
          (by simpa using at_i) front step back split
        refine (there before step).mp (h (segment ++ before) step after ?_)
        rw [split, List.append_assoc]
    · intro h before step after split
      have later := (ih fun i => P (i + 1)).mpr fun i other at_i => h (i + 1) other (by simpa using at_i)
      rcases List.append_eq_append_iff.mp split with ⟨front, rfl, of_rest⟩ | ⟨back, of_segment, eq⟩
      · exact (there front step).mpr (later front step after of_rest)
      · rcases back with _ | ⟨first, back⟩
        · have at_start := (there [] step).mpr (later [] step after eq.symm)
          rwa [List.append_nil, of_segment, List.append_nil] at at_start
        · obtain ⟨rfl, -⟩ := List.cons.inj eq
          exact (here of_segment).mpr (h 0 segment rfl before step back of_segment)

/-- References of a chain are references inside its segments. -/
theorem Chain.refersBack_iff (chain : Chain) (name : Nat → State → String) :
    chain.RefersBack name ↔ ∀ i segment, (segments chain.steps)[i]? = some segment →
      ChunkedChain.RefersBack (name (i + 1)) segment := by
  have by_cut := (cut_segments chain.steps).forall_iff fun i before step => ∀ s, step = .state s →
    ∀ r ∈ s.requisites.toList, ∃ t, Step.state t ∈ before ∧ r.module = t.task.stateModule ∧
      r.id = name (i + 1) t
  constructor
  · intro h i segment at_i before s after split
    refine by_cut.mp (fun before step after split s eq r mem => ?_) i segment at_i before _ after split s rfl
    obtain ⟨front, t, back, before_eq, quiet, names⟩ := h before s after (eq ▸ split) r mem
    exact ⟨t, mem_openPart.mpr ⟨front, back, before_eq, quiet⟩, names⟩
  · intro h before s after split r mem
    obtain ⟨t, in_open, names⟩ := by_cut.mpr (fun i segment at_i before step after split s eq =>
      h i segment at_i before s after (eq ▸ split)) before _ after split s rfl r mem
    obtain ⟨front, back, before_eq, quiet⟩ := mem_openPart.mp in_open
    exact ⟨front, t, back, before_eq, quiet, names⟩

namespace Chunk

theorem stateModule_placeTask (place : Place) (task : Task) :
    (place.placeTask task).stateModule = task.stateModule := by cases task <;> rfl

/-- A placed state is referred to by its old id with the suffix, and by no other. -/
theorem refers_compiled {place : Place} {inputs outputs : List Step}
    (compiled : List.Forall₂ (Step.Compiled place) inputs outputs) (r : Requisite) :
    (∃ t, Step.state t ∈ outputs ∧ r.module = t.task.stateModule ∧ r.id = t.id) ↔
      ∃ s, Step.state s ∈ inputs ∧ r.module = s.task.stateModule ∧ r.id = s.idIn place.chunk.toNat := by
  constructor
  · rintro ⟨t, mem, module, id⟩
    obtain ⟨step, mem_input, of_step⟩ := forall₂_exists_of_mem compiled.flip mem
    cases of_step with
    | state id_t task_t _ _ =>
      refine ⟨_, mem_input, ?_, ?_⟩
      · rw [module, task_t, stateModule_placeTask]
      · rw [id, id_t, StateId.chunkSuffix, ← String.append_assoc]
        rfl
  · rintro ⟨s, mem, module, id⟩
    obtain ⟨step, mem_output, of_step⟩ := forall₂_exists_of_mem compiled mem
    cases of_step with
    | state id_t task_t _ _ =>
      refine ⟨_, mem_output, ?_, ?_⟩
      · rw [module, task_t, stateModule_placeTask]
      · rw [id, id_t, StateId.chunkSuffix, ← String.append_assoc]
        rfl

/-- A requisite of a placed state is one that the state came with, or refers to the state right before. -/
theorem LinkedFrom.requisite_cases {input : List Step} {chunk : Chunk} (linked : LinkedFrom input chunk)
    {before after before' after' : List Step} {s t : State} (of_input : input = before ++ .state s :: after)
    (of_steps : chunk.steps = before' ++ .state t :: after') (same : before.length = before'.length)
    {r : Requisite} (mem : r ∈ t.requisites.toList) :
    r ∈ s.requisites.toList ∨ ∃ p, Step.state p ∈ before' ∧ r = p.requirement := by
  have at_input : input[before.length]? = some (.state s) := by simp [of_input]
  have at_steps : chunk.steps[before.length]? = some (.state t) := by simp [of_steps, same]
  rcases length : before.length with _ | i
  · have first := linked.first
    rw [length] at at_input at_steps
    rw [List.head?_eq_getElem?, List.head?_eq_getElem?, at_input, at_steps] at first
    have requisites : t.requisites = s.requisites := Option.some.inj first
    exact .inl (requisites ▸ mem)
  · rw [length] at at_input at_steps
    obtain ⟨q, -, p, at_p, -, requisites⟩ := linked.later i s t at_input at_steps
    have inside : i < before'.length := by omega
    rw [of_steps, List.getElem?_append_left inside] at at_p
    rw [requisites] at mem
    split at mem
    · exact .inl mem
    · rcases List.mem_append.mp mem with own | added
      · exact .inl own
      · exact .inr ⟨p, List.mem_of_getElem? at_p, List.mem_singleton.mp added⟩

/-- The requisites of the steps of a chunk refer to steps of the chunk exactly if those of its input have
been written with the suffix. -/
theorem LinkedFrom.refersBack_iff {input : List Step} {chunk : Chunk} (linked : LinkedFrom input chunk) :
    RefersBack State.id chunk.steps ↔ RefersBack (State.idIn chunk.number.toNat) input := by
  constructor
  · intro h before s after split r mem
    have compiled := linked.compiled
    rw [split] at compiled
    obtain ⟨before', rest, steps, of_before, of_rest⟩ := forall₂_append_left compiled
    obtain ⟨step, after', of_step, -, rfl⟩ := List.forall₂_cons_left_iff.mp of_rest
    cases of_step with
    | @state _ t added id task requisites _ =>
      have kept : r ∈ t.requisites.toList := by
        rw [requisites]
        exact List.mem_append_left _ mem
      exact (refers_compiled of_before r).mp (h before' t after' steps r kept)
  · intro h before' t after' steps r mem
    have compiled := linked.compiled.flip
    rw [steps] at compiled
    obtain ⟨before, rest, split, of_before, of_rest⟩ := forall₂_append_left compiled
    obtain ⟨step, after, of_step, -, rfl⟩ := List.forall₂_cons_left_iff.mp of_rest
    cases of_step with
    | @state s _ added id task requisites _ =>
      rcases linked.requisite_cases split steps of_before.length_eq.symm mem with own | ⟨p, before_p, rfl⟩
      · exact (refers_compiled of_before.flip r).mpr (h before s after split r own)
      · exact ⟨p, before_p, rfl, rfl⟩

end Chunk

/-- No state has an id that could be one with a chunk's suffix. -/
def Chain.PlainIds (chain : Chain) : Prop :=
  ∀ s, Step.state s ∈ chain.steps → ∀ (other : State) (number : Nat), s.id ≠ other.idIn number

/-- The requisites of compiled steps all refer to steps of their chunk exactly if those of the chain have
been written with the suffix. So if they refer to the steps as they are called in the chain, and no step
has a suffix already, all references are right in the end only where there were none. -/
theorem compile_refersBack_iff (chain : Chain) (bound : chain.splits ≤ UInt32.size - 2) :
    ((∀ chunk ∈ compile chain, RefersBack State.id chunk.steps) ↔ chain.RefersBack State.idIn) ∧
    (chain.RefersBack (fun _ => State.id) → chain.PlainIds →
      ((∀ chunk ∈ compile chain, RefersBack State.id chunk.steps) ↔
        ∀ s, Step.state s ∈ chain.steps → s.requisites.toList = [])) := by
  have bound := chain.splits_add_two_le bound
  have linked := linkedFrom_compile chain
  have placed_iff : (∀ chunk ∈ compile chain, RefersBack State.id chunk.steps) ↔
      chain.RefersBack State.idIn := by
    rw [chain.refersBack_iff]
    constructor
    · intro h i segment at_i
      obtain ⟨chunk, at_chunk, from_segment⟩ := forall₂_exists_left linked.flip at_i
      rw [← number_compile bound at_chunk]
      exact from_segment.refersBack_iff.mp (h chunk (List.mem_of_getElem? at_chunk))
    · intro h chunk mem
      obtain ⟨i, at_chunk⟩ := List.mem_iff_getElem?.mp mem
      obtain ⟨segment, at_i, from_segment⟩ := forall₂_exists_left linked at_chunk
      have refers := h i segment at_i
      rw [← number_compile bound at_chunk] at refers
      exact from_segment.refersBack_iff.mpr refers
  refine ⟨placed_iff, fun in_chain plain => placed_iff.trans ⟨?_, ?_⟩⟩
  · intro h s mem
    obtain ⟨before, after, split⟩ := List.append_of_mem mem
    refine List.eq_nil_iff_forall_not_mem.mpr fun r mem => ?_
    obtain ⟨_, t, _, before_eq, -, -, id⟩ := in_chain before s after split r mem
    obtain ⟨_, t', _, -, -, -, id'⟩ := h before s after split r mem
    refine plain t ?_ t' _ (id.symm.trans id')
    rw [split, before_eq]
    simp
  · intro none before s after split r mem
    rw [none s (by rw [split]; simp)] at mem
    cases mem

/-- Two steps, the second of which watches the first one. -/
def watchingPair : Chain where
  id := 1
  target := ⟨"node", "m1"⟩
  steps :=
    [.state ⟨"a", .run "test.ping" [] none, .empty⟩,
      .state ⟨"b", .run "test.ping" [] none, ⟨[⟨.watch, "module", "a"⟩]⟩⟩]

theorem refersBack_watchingPair : watchingPair.RefersBack fun _ => State.id := by
  intro before s after split r mem
  rcases before with _ | ⟨first, _ | ⟨second, rest⟩⟩
  · obtain ⟨rfl, -⟩ : _ = s ∧ _ := by simpa [watchingPair] using split
    cases mem
  · obtain ⟨rfl, rfl, -⟩ : _ = first ∧ _ = s ∧ _ := by simpa [watchingPair] using split
    obtain rfl := List.mem_singleton.mp mem
    refine ⟨[], _, [], rfl, ?_, rfl, rfl⟩
    intro step mem
    rw [List.mem_singleton.mp mem]
    decide +kernel
  · simp [watchingPair] at split

theorem splits_watchingPair : watchingPair.splits ≤ UInt32.size - 2 := by
  have none : watchingPair.splits = 0 := by decide +kernel
  rw [none]
  exact Nat.zero_le _

theorem plainIds_watchingPair : watchingPair.PlainIds := by
  intro s mem other number same
  have short : s.id.toList.length = 1 := by
    simp only [watchingPair, List.mem_cons, Step.state.injEq, List.not_mem_nil, or_false] at mem
    rcases mem with rfl | rfl <;> rfl
  have suffix : "_chunk_".toList.length = 7 := rfl
  rw [same, State.idIn, String.toList_append, String.toList_append, List.length_append,
    List.length_append] at short
  omega

theorem compile_refersBack_watchingPair :
    watchingPair.splits ≤ UInt32.size - 2 ∧ watchingPair.RefersBack (fun _ => State.id) ∧
      watchingPair.PlainIds ∧
      ((∀ chunk ∈ compile watchingPair, RefersBack State.id chunk.steps) ↔
        watchingPair.RefersBack State.idIn) ∧
      ((∀ chunk ∈ compile watchingPair, RefersBack State.id chunk.steps) ↔
        ∀ s, Step.state s ∈ watchingPair.steps → s.requisites.toList = []) := by
  obtain ⟨placed_iff, plain_iff⟩ := compile_refersBack_iff watchingPair splits_watchingPair
  exact ⟨splits_watchingPair, refersBack_watchingPair, plainIds_watchingPair, placed_iff,
    plain_iff refersBack_watchingPair plainIds_watchingPair⟩

theorem compile_watchingPair :
    compile watchingPair = [Chunk.ofSegment ⟨1, "m1", 1⟩ false watchingPair.steps] := by
  refine compile_of_open fun s hs => ?_
  simp only [watchingPair, List.mem_cons, List.not_mem_nil, or_false] at hs
  rcases hs with rfl | rfl <;> decide +kernel

/-- The second step still watches the first one under its old name. -/
theorem dangling_watchingPair :
    watchingPair.splits ≤ UInt32.size - 2 ∧ (watchingPair.RefersBack fun _ => State.id) ∧
      ∃ chunk ∈ compile watchingPair, ¬ RefersBack State.id chunk.steps := by
  refine ⟨splits_watchingPair, refersBack_watchingPair, _, compile_watchingPair ▸ List.mem_cons_self, ?_⟩
  intro refers
  obtain ⟨t, mem, -, id⟩ := refers [_] _ [] rfl ⟨.watch, "module", "a"⟩ (by decide)
  obtain rfl := Step.state.inj (List.mem_singleton.mp mem)
  exact absurd id (by decide)

end ChunkedChain
