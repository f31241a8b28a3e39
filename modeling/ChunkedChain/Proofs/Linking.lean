import ChunkedChain.Proofs.Segments

/-!
# Linking states

A step is linked to the last real step before it. Inside one segment a mark can only stand at the end,
so what is linked is a plain list of states, each to the one right before it: `linkStates` is that list,
and `placeSteps_append_marks` reduces the steps of a segment to it. The reference to a state is read off
its body, and `moduleOfBody?_body` says that this reading never fails.
-/

namespace ChunkedChain

namespace Task

/-- The state module of a task's state function: what stands before its dot. -/
def stateModule : Task → String
  | .script _ => "cmd"
  | .run .. => "module"
  | .reboot _ => "module"

/-- The name that the state module gives to what it does: what stands after the dot. -/
def moduleFunction : Task → String
  | .script _ => "script"
  | .run .. => "run"
  | .reboot _ => "run"

theorem stateFunction_eq (task : Task) :
    task.stateFunction = task.stateModule ++ "." ++ task.moduleFunction := by
  cases task <;> rfl

theorem moduleOfFunction?_run : StateRef.moduleOfFunction? "module.run" = some "module" := by decide

theorem moduleOfFunction?_script : StateRef.moduleOfFunction? "cmd.script" = some "cmd" := by decide

theorem moduleOfFunction?_stateFunction (task : Task) :
    StateRef.moduleOfFunction? task.stateFunction = some task.stateModule := by
  cases task with
  | run function args kwargs => exact moduleOfFunction?_run
  | script script => exact moduleOfFunction?_script
  | reboot delay => exact moduleOfFunction?_run

end Task

namespace State

/-- The requisite that makes another state run after this one. -/
def requirement (state : State) : Requisite := ⟨.require, state.task.stateModule, state.id⟩

/-- The state, made to run after `previous` if there is one. -/
def follow (previous : Option State) (state : State) : State :=
  match previous with
  | some p => state.addRequisite p.requirement
  | none => state

theorem moduleOfBody?_body (state : State) :
    StateRef.moduleOfBody? state.body = some state.task.stateModule :=
  state.task.moduleOfFunction?_stateFunction

@[simp] theorem follow_id (previous : Option State) (state : State) :
    (state.follow previous).id = state.id := by cases previous <;> rfl

@[simp] theorem follow_task (previous : Option State) (state : State) :
    (state.follow previous).task = state.task := by cases previous <;> rfl

/-- Only the requisites of a linked state are new. -/
theorem follow_eq (previous : Option State) (state : State) :
    state.follow previous = { state with requisites := (state.follow previous).requisites } := by
  cases previous <;> rfl

theorem follow_some_requisites (p state : State) :
    (state.follow (some p)).requisites.toList =
      if p.requirement ∈ state.requisites.toList then state.requisites.toList
      else state.requisites.toList ++ [p.requirement] := by
  by_cases h : p.requirement ∈ state.requisites.toList
  · rw [if_pos h]
    exact congrArg Requisites.toList (Requisites.add_of_mem h)
  · rw [if_neg h]
    exact Requisites.toList_add_of_not_mem h

end State

namespace Step

theorem of?_state (state : State) :
    StateRef.of? (.state state) = some ⟨state.task.stateModule, state.id⟩ := by
  simp [StateRef.of?, data, state.moduleOfBody?_body]

/-- A reference never falls back to an empty module name. -/
theorem log_reference (step : Step) : StateRef.log step = [] := by
  cases step with
  | state s => simp [StateRef.log, data, s.moduleOfBody?_body]
  | rebootMark => rfl

theorem after_rebootMark (previous : Option Step) : after previous .rebootMark = .rebootMark := by
  unfold after
  split <;> rfl

theorem after_state (previous : Option State) (state : State) :
    after (previous.map Step.state) (.state state) = .state (state.follow previous) := by
  cases previous with
  | none => rfl
  | some p => simp [after, of?_state, State.follow, State.requirement, StateRef.requirement]

theorem lastReal?_cons (step : Step) (rest : List Step) :
    lastReal? (step :: rest) =
      (lastReal? rest).or (if step.state?.isSome then some step else none) := by
  simp only [lastReal?, List.reverse_cons, List.find?_append, List.find?_singleton]

/-- The last real step is the last state. -/
theorem lastReal?_eq (steps : List Step) :
    lastReal? steps = ((steps.filterMap state?).getLast?).map Step.state := by
  induction steps with
  | nil => rfl
  | cons step rest ih =>
    rw [lastReal?_cons, ih]
    cases step with
    | rebootMark => simp [state?]
    | state s => cases h : (rest.filterMap state?).getLast? <;> simp [state?, List.getLast?_cons, h]

end Step

theorem filterMap_state (states : List State) :
    (states.map Step.state).filterMap Step.state? = states := by
  induction states with
  | nil => rfl
  | cons state rest ih => simp [Step.state?, ih]

theorem mem_filterMap_state? {steps : List Step} {s : State} :
    s ∈ steps.filterMap Step.state? ↔ Step.state s ∈ steps := by
  rw [List.mem_filterMap]
  constructor
  · rintro ⟨step, mem, eq⟩
    cases step with
    | state t => exact Option.some.inj eq ▸ mem
    | rebootMark => cases eq
  · intro mem
    exact ⟨.state s, mem, rfl⟩

def AtMostMark (marks : List Step) : Prop := marks = [] ∨ marks = [.rebootMark]

theorem filterMap_state_append {marks : List Step} (h : AtMostMark marks) (states : List State) :
    (states.map Step.state ++ marks).filterMap Step.state? = states := by
  rw [List.filterMap_append, filterMap_state]
  rcases h with rfl | rfl <;> exact List.append_nil states

theorem getElem?_state_append {marks : List Step} (h : AtMostMark marks) (states : List State)
    (i : Nat) (state : State) :
    (states.map Step.state ++ marks)[i]? = some (.state state) ↔ states[i]? = some state := by
  rw [List.getElem?_append, List.length_map]
  split
  · rw [List.getElem?_map, Option.map_eq_some_iff]
    exact ⟨fun ⟨s, hs, e⟩ => Step.state.inj e ▸ hs, fun hs => ⟨state, hs, rfl⟩⟩
  · rename_i outside
    have missing : states[i]? = none := List.getElem?_eq_none (by omega)
    rw [missing]
    rcases h with rfl | rfl
    · simp
    · cases i - states.length <;> simp

/-- Steps among which a mark, if there is one, has nothing after it. -/
def MarkLast (steps : List Step) : Prop :=
  ∃ (states : List State) (marks : List Step),
    AtMostMark marks ∧ steps = states.map Step.state ++ marks

theorem MarkLast.after_mark {before after : List Step}
    (h : MarkLast (before ++ .rebootMark :: after)) : after = [] := by
  obtain ⟨states, marks, mark, eq⟩ := h
  rcases List.append_eq_append_iff.mp eq with ⟨rest, eq_states, eq_marks⟩ | ⟨rest, -, eq_marks⟩
  · cases rest with
    | nil =>
      rcases mark with rfl | rfl
      · simp at eq_marks
      · simpa using eq_marks
    | cons step rest =>
      obtain ⟨rfl, -⟩ := List.cons.inj eq_marks
      have member : Step.rebootMark ∈ states.map Step.state := by rw [eq_states]; simp
      simp at member
  · rcases mark with rfl | rfl
    · simp at eq_marks
    · cases rest with
      | nil => simpa using eq_marks.symm
      | cons step rest => simp at eq_marks

theorem OpenSegment.eq_states {segment : List Step} (quiet : OpenSegment segment) :
    ∃ states : List State, segment = states.map Step.state := by
  induction segment with
  | nil => exact ⟨[], rfl⟩
  | cons step rest ih =>
    obtain ⟨states, rfl⟩ := ih fun s hs => quiet s (List.mem_cons_of_mem _ hs)
    cases step with
    | state s => exact ⟨s :: states, rfl⟩
    | rebootMark => exact absurd (quiet _ List.mem_cons_self) (by decide)

theorem OpenSegment.markLast {segment : List Step} (quiet : OpenSegment segment) :
    MarkLast segment := by
  obtain ⟨states, rfl⟩ := quiet.eq_states
  exact ⟨states, [], .inl rfl, by simp⟩

theorem ClosedSegment.markLast {segment : List Step} (closed : ClosedSegment segment) :
    MarkLast segment := by
  obtain ⟨before, final, rfl, -, quiet⟩ := closed
  obtain ⟨states, rfl⟩ := quiet.eq_states
  cases final with
  | state s => exact ⟨states ++ [s], [], .inl rfl, by simp⟩
  | rebootMark => exact ⟨states, [.rebootMark], .inr rfl, rfl⟩

theorem markLast_segments {steps segment : List Step} {i : Nat}
    (h : (segments steps)[i]? = some segment) : MarkLast segment := by
  have cut := cut_segments steps
  have bound := (List.getElem?_eq_some_iff.mp h).1
  rcases Nat.lt_or_eq_of_le bound with more | last
  · exact (cut.closed_of_lt h more).markLast
  · exact (cut.open_of_last h last).markLast

namespace Place

variable (place : Place)

/-- Links each state to the one before it, the first one to `previous`, and gives all of them their
place. -/
def linkStates (previous : Option State) : List State → List State
  | [] => []
  | state :: rest =>
    let placed := place.placeState (state.follow previous)
    placed :: linkStates (some placed) rest

@[simp] theorem length_linkStates (previous : Option State) (states : List State) :
    (place.linkStates previous states).length = states.length := by
  induction states generalizing previous with
  | nil => rfl
  | cons state rest ih => simp [linkStates, ih]

/-- Every state but the first is linked to the placed state before it. -/
theorem getElem?_linkStates_succ (previous : Option State) {states : List State} {i : Nat}
    {state : State} (h : states[i + 1]? = some state) :
    ∃ q, states[i]? = some q ∧ ∃ p, (place.linkStates previous states)[i]? = some p ∧
      p.id = q.id ++ StateId.chunkSuffix place.chunk ∧ p.task = place.placeTask q.task ∧
      (place.linkStates previous states)[i + 1]? = some (place.placeState (state.follow (some p))) := by
  induction states generalizing previous i with
  | nil => simp at h
  | cons first rest ih =>
    cases i with
    | zero =>
      cases rest with
      | nil => simp at h
      | cons second rest =>
        obtain rfl : second = state := by simpa using h
        refine ⟨first, rfl, place.placeState (first.follow previous), rfl, ?_, ?_, rfl⟩
        · simp [placeState]
        · simp [placeState]
    | succ i =>
      obtain ⟨q, hq, p, hp, id, task, linked⟩ :=
        ih (some (place.placeState (first.follow previous))) (by simpa using h)
      exact ⟨q, hq, p, hp, id, task, linked⟩

theorem placeSteps_append (previous : Option Step) (steps others : List Step) :
    place.placeSteps previous (steps ++ others) =
      place.placeSteps previous steps ++
        place.placeSteps ((Step.lastReal? (place.placeSteps previous steps)).or previous) others := by
  induction steps generalizing previous with
  | nil => rfl
  | cons step rest ih =>
    simp only [List.cons_append, placeSteps, ih, Step.lastReal?_cons, List.cons.injEq, true_and]
    congr 2
    cases h : Step.lastReal? (place.placeSteps _ rest) <;> split <;> simp [*]

theorem placeSteps_states (previous : Option State) (states : List State) :
    place.placeSteps (previous.map Step.state) (states.map Step.state) =
      (place.linkStates previous states).map Step.state := by
  induction states generalizing previous with
  | nil => rfl
  | cons state rest ih =>
    have next := ih (some (place.placeState (state.follow previous)))
    simp only [Option.map_some] at next
    simp [placeSteps, linkStates, Step.after_state, Step.state?, next]

/-- The steps of a segment are its states, linked one to the other, and the mark that may end it. -/
theorem placeSteps_append_marks {marks : List Step} (h : AtMostMark marks) (states : List State) :
    place.placeSteps none (states.map Step.state ++ marks) =
      (place.linkStates none states).map Step.state ++ marks := by
  rw [placeSteps_append, ← Option.map_none, placeSteps_states]
  rcases h with rfl | rfl
  · rfl
  · simp [placeSteps, Step.after_rebootMark]

theorem markLast_placeSteps {steps : List Step} (h : MarkLast steps) :
    MarkLast (place.placeSteps none steps) := by
  obtain ⟨states, marks, mark, rfl⟩ := h
  exact ⟨_, marks, mark, place.placeSteps_append_marks mark states⟩

theorem filterMap_placeSteps {steps : List Step} (h : MarkLast steps) :
    (place.placeSteps none steps).filterMap Step.state? =
      place.linkStates none (steps.filterMap Step.state?) := by
  obtain ⟨states, marks, mark, rfl⟩ := h
  rw [placeSteps_append_marks place mark, filterMap_state_append mark, filterMap_state_append mark]

end Place

end ChunkedChain
