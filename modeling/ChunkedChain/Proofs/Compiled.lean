import ChunkedChain.Proofs.Linking
import Mathlib.Data.List.Forall2

/-!
# Compiled chains

The chunk at each position of a compiled chain is made of the segment at that position. From this one
equation follow the number of chunks, their numbers, and what becomes of each step.
-/

namespace ChunkedChain

theorem forall₂_exists_left {α β : Type} {R : α → β → Prop} {xs : List α} {ys : List β}
    (h : List.Forall₂ R xs ys) {i : Nat} {y : β} (hy : ys[i]? = some y) :
    ∃ x, xs[i]? = some x ∧ R x y := by
  obtain ⟨hi, rfl⟩ := List.getElem?_eq_some_iff.mp hy
  have hi_left : i < xs.length := by
    rw [h.length_eq]
    exact hi
  exact ⟨xs[i], List.getElem?_eq_getElem hi_left, h.get hi_left hi⟩

theorem forall₂_exists_of_mem {α β : Type} {R : α → β → Prop} {xs : List α} {ys : List β}
    (h : List.Forall₂ R xs ys) {x : α} (mem : x ∈ xs) : ∃ y ∈ ys, R x y := by
  induction h with
  | nil => cases mem
  | cons related _ ih =>
    rcases List.mem_cons.mp mem with rfl | mem
    · exact ⟨_, List.mem_cons_self, related⟩
    · obtain ⟨y, later, related⟩ := ih mem
      exact ⟨y, List.mem_cons_of_mem _ later, related⟩

theorem forall₂_append_left {α β : Type} {R : α → β → Prop} {xs ys : List α} {zs : List β}
    (h : List.Forall₂ R (xs ++ ys) zs) :
    ∃ first last, zs = first ++ last ∧ List.Forall₂ R xs first ∧ List.Forall₂ R ys last := by
  induction xs generalizing zs with
  | nil => exact ⟨[], zs, rfl, .nil, h⟩
  | cons x xs ih =>
    obtain ⟨z, rest, related, others, rfl⟩ := List.forall₂_cons_left_iff.mp h
    obtain ⟨first, last, rfl, left, right⟩ := ih others
    exact ⟨z :: first, last, rfl, .cons related left, right⟩

theorem map_of_forall₂ {α β : Type} {R : α → α → Prop} {f g : α → β} {xs ys : List α}
    (h : List.Forall₂ R xs ys) (each : ∀ x y, R x y → f y = g x) : ys.map f = xs.map g := by
  induction h with
  | nil => rfl
  | cons related _ ih => rw [List.map_cons, List.map_cons, each _ _ related, ih]

/-- What is picked from each element of one list is what is picked from its partner, changed by `g`. -/
theorem filterMap_of_forall₂ {α β : Type} {R : α → α → Prop} {f : α → Option β} {g : β → β}
    {xs ys : List α} (h : List.Forall₂ R xs ys) (each : ∀ x y, R x y → f y = (f x).map g) :
    ys.filterMap f = (xs.filterMap f).map g := by
  induction h with
  | nil => rfl
  | @cons x y _ _ related _ ih =>
    rw [List.filterMap_cons, List.filterMap_cons, each x y related]
    cases f x with
    | none => exact ih
    | some b => exact congrArg (g b :: ·) ih

/-- What becomes of a step in its place: a mark stays a mark; a state gets the chunk's suffix, a script
the address of its file, and at most one requisite comes after those that were there. -/
inductive Step.Compiled (place : Place) : Step → Step → Prop where
  | mark : Compiled place .rebootMark .rebootMark
  | state {s t : State} {added : List Requisite} :
      t.id = s.id ++ StateId.chunkSuffix place.chunk → t.task = place.placeTask s.task →
      t.requisites.toList = s.requisites.toList ++ added → added.length ≤ 1 →
      Compiled place (.state s) (.state t)

theorem Place.reboots_placeTask (place : Place) (task : Task) :
    (place.placeTask task).reboots = task.reboots := by cases task <;> rfl

theorem Step.Compiled.endsChunk_eq {place : Place} {input output : Step}
    (compiled : Step.Compiled place input output) : output.endsChunk = input.endsChunk := by
  cases compiled with
  | mark => rfl
  | @state s t _ _ task _ _ =>
    change t.task.reboots = s.task.reboots
    rw [task, place.reboots_placeTask]

theorem Place.compiled_place (place : Place) (previous : Option Step) (step : Step) :
    Step.Compiled place step ((step.after previous).mapState place.placeState) := by
  cases step with
  | rebootMark =>
    rw [Step.after_rebootMark]
    exact .mark
  | state s =>
    unfold Step.after
    split
    · rename_i ref _
      by_cases h : ref.requirement ∈ s.requisites.toList
      · refine @Step.Compiled.state place _ _ [] rfl rfl ?_ (by simp)
        simpa [State.addRequisite, Place.placeState] using
          congrArg Requisites.toList (Requisites.add_of_mem h)
      · refine @Step.Compiled.state place _ _ [ref.requirement] rfl rfl ?_ (by simp)
        simpa [State.addRequisite, Place.placeState] using Requisites.toList_add_of_not_mem h
    · exact @Step.Compiled.state place _ _ [] rfl rfl (by simp [Place.placeState]) (by simp)

theorem Place.forall₂_placeSteps (place : Place) (previous : Option Step) (steps : List Step) :
    List.Forall₂ (Step.Compiled place) steps (place.placeSteps previous steps) := by
  induction steps generalizing previous with
  | nil => exact .nil
  | cons step rest ih => exact .cons (place.compiled_place previous step) (ih _)

theorem Place.length_placeSteps (place : Place) (previous : Option Step) (steps : List Step) :
    (place.placeSteps previous steps).length = steps.length :=
  (place.forall₂_placeSteps previous steps).length_eq.symm

theorem OpenSegment.placed {steps : List Step} (quiet : OpenSegment steps) (place : Place)
    (previous : Option Step) : OpenSegment (place.placeSteps previous steps) := by
  induction steps generalizing previous with
  | nil => exact .nil
  | cons step rest ih =>
    refine .cons ?_ (ih (fun s hs => quiet s (List.mem_cons_of_mem _ hs)) _)
    rw [(place.compiled_place previous step).endsChunk_eq]
    exact quiet step List.mem_cons_self

theorem ClosedSegment.placed {steps : List Step} (closed : ClosedSegment steps) (place : Place)
    (previous : Option Step) : ClosedSegment (place.placeSteps previous steps) := by
  obtain ⟨before, final, rfl, ends, quiet⟩ := closed
  rw [Place.placeSteps_append]
  refine ⟨_, _, rfl, ?_, quiet.placed place previous⟩
  rw [(place.compiled_place _ final).endsChunk_eq]
  exact ends

/-- Counting on from a number that is not the greatest one. -/
theorem toNat_add_one {number : UInt32} (h : number.toNat + 1 < UInt32.size) :
    (number + 1).toNat = number.toNat + 1 := Nat.mod_eq_of_lt h

namespace Chain

/-- How many steps end their chunk. -/
def splits (chain : Chain) : Nat := chain.steps.countP Step.endsChunk

/-- A counter that starts at 1 can count the chunks, and one more. -/
theorem splits_add_two_le (chain : Chain) (bound : chain.splits ≤ UInt32.size - 2) :
    chain.splits + 2 ≤ UInt32.size := by
  have : 2 ≤ UInt32.size := by decide
  omega

/-- Where the steps of the chunk at position `i` stand; positions start at 0, chunk numbers at 1. -/
def placeAt (chain : Chain) (i : Nat) : Place :=
  ⟨chain.id, chain.target.machine, UInt32.ofNat (i + 1)⟩

theorem toNat_placeAt (chain : Chain) {i : Nat} (h : i + 1 < UInt32.size) :
    (chain.placeAt i).chunk.toNat = i + 1 := UInt32.toNat_ofNat_of_lt' h

theorem length_segments (chain : Chain) : (segments chain.steps).length = chain.splits + 1 :=
  (cut_segments chain.steps).length_eq

end Chain

theorem Chunk.length_ofSegments (place : Place) (cuts : List (List Step)) :
    (Chunk.ofSegments place cuts).length = cuts.length := by
  fun_induction Chunk.ofSegments place cuts with
  | case1 => rfl
  | case2 => rfl
  | case3 place segment rest _ ih => simp [ih]

theorem Chunk.getElem?_ofSegments (place : Place) (cuts : List (List Step)) (i : Nat) :
    (Chunk.ofSegments place cuts)[i]? =
      cuts[i]?.map (Chunk.ofSegment { place with chunk := place.chunk + UInt32.ofNat i }
        (decide (i + 1 < cuts.length))) := by
  induction cuts generalizing place i with
  | nil => rfl
  | cons segment rest ih =>
    cases rest with
    | nil => cases i <;> simp [Chunk.ofSegments]
    | cons next others =>
      cases i with
      | zero => simp [Chunk.ofSegments]
      | succ i =>
        have shift : place.chunk + (UInt32.ofNat i + 1) = place.chunk + 1 + UInt32.ofNat i := by
          rw [UInt32.add_comm (UInt32.ofNat i), UInt32.add_assoc]
        simp [Chunk.ofSegments, ih, shift]

/-- The chunk at a position is made of the segment at that position. -/
theorem getElem?_compile (chain : Chain) (i : Nat) :
    (compile chain)[i]? =
      (segments chain.steps)[i]?.map
        (Chunk.ofSegment (chain.placeAt i) (decide (i < chain.splits))) := by
  have number : (1 : UInt32) + UInt32.ofNat i = UInt32.ofNat (i + 1) := by
    rw [UInt32.ofNat_add, UInt32.add_comm]
    rfl
  simp [compile, Chunk.getElem?_ofSegments, Chain.placeAt, Chain.length_segments, number]

/-- A chain that nothing cuts is compiled into one chunk. -/
theorem compile_of_open {chain : Chain} (quiet : OpenSegment chain.steps) :
    compile chain = [Chunk.ofSegment ⟨chain.id, chain.target.machine, 1⟩ false chain.steps] := by
  rw [compile, segments_of_open quiet]
  rfl

theorem length_compile (chain : Chain) : (compile chain).length = chain.splits + 1 := by
  rw [compile, Chunk.length_ofSegments, chain.length_segments]

/-- What holds of each segment and the chunk made of it holds all along the chain. -/
theorem forall₂_compile (chain : Chain) {R : List Step → Chunk → Prop}
    (h : ∀ i segment, (segments chain.steps)[i]? = some segment →
      R segment (Chunk.ofSegment (chain.placeAt i) (decide (i < chain.splits)) segment)) :
    List.Forall₂ R (segments chain.steps) (compile chain) := by
  rw [List.forall₂_iff_get]
  refine ⟨by rw [chain.length_segments, length_compile], fun i hi hc => ?_⟩
  have at_segments := List.getElem?_eq_getElem hi
  have at_compile := getElem?_compile chain i
  rw [at_segments, List.getElem?_eq_getElem hc] at at_compile
  have made := Option.some.inj at_compile
  simp only [List.get_eq_getElem, made]
  exact h i _ at_segments

end ChunkedChain
