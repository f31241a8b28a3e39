import ChunkedChain.Chunk

/-!
# Cutting steps into segments

`Cut steps segments` says what a right cut is, without the function that makes one: every segment but
the last is closed, which means that its last step ends the chunk and no other step does, and the last
segment is open. `segments` always gives such a cut.
-/

namespace ChunkedChain

def OpenSegment (steps : List Step) : Prop := ∀ step ∈ steps, step.endsChunk = false

/-- The last step ends the chunk, and no other one does. -/
def ClosedSegment (steps : List Step) : Prop :=
  ∃ before final, steps = before ++ [final] ∧ final.endsChunk = true ∧ OpenSegment before

inductive Cut : List Step → List (List Step) → Prop where
  | last {steps : List Step} : OpenSegment steps → Cut steps [steps]
  | closed {segment rest : List Step} {others : List (List Step)} :
      ClosedSegment segment → Cut rest others → Cut (segment ++ rest) (segment :: others)

theorem OpenSegment.nil : OpenSegment [] := fun _ h => absurd h List.not_mem_nil

theorem OpenSegment.cons {step : Step} {segment : List Step} (h : step.endsChunk = false)
    (quiet : OpenSegment segment) : OpenSegment (step :: segment) := by
  intro s hs
  rcases List.mem_cons.mp hs with rfl | hs
  · exact h
  · exact quiet s hs

theorem OpenSegment.countP_eq_zero {segment : List Step} (quiet : OpenSegment segment) :
    segment.countP Step.endsChunk = 0 :=
  List.countP_eq_zero.mpr fun s hs => Bool.eq_false_iff.mp (quiet s hs)

theorem ClosedSegment.cons {step : Step} {segment : List Step} (h : step.endsChunk = false)
    (closed : ClosedSegment segment) : ClosedSegment (step :: segment) := by
  obtain ⟨before, final, rfl, ends, quiet⟩ := closed
  exact ⟨step :: before, final, rfl, ends, quiet.cons h⟩

theorem ClosedSegment.ne_nil {segment : List Step} (closed : ClosedSegment segment) :
    segment ≠ [] := by
  obtain ⟨before, final, rfl, -, -⟩ := closed
  simp

theorem ClosedSegment.countP_eq_one {segment : List Step} (closed : ClosedSegment segment) :
    segment.countP Step.endsChunk = 1 := by
  obtain ⟨before, final, rfl, ends, quiet⟩ := closed
  rw [List.countP_append, quiet.countP_eq_zero, List.countP_singleton, if_pos ends]

namespace Cut

/-- A step that ends nothing joins the first segment. -/
theorem cons {step : Step} {rest first : List Step} {others : List (List Step)}
    (h : step.endsChunk = false) (cut : Cut rest (first :: others)) :
    Cut (step :: rest) ((step :: first) :: others) := by
  cases cut with
  | last quiet => exact .last (quiet.cons h)
  | closed done cut => exact .closed (done.cons h) cut

theorem ne_nil {steps : List Step} {cuts : List (List Step)} (cut : Cut steps cuts) : cuts ≠ [] := by
  cases cut <;> simp

/-- A cut loses nothing, repeats nothing and moves nothing. -/
theorem flatten_eq {steps : List Step} {cuts : List (List Step)} (cut : Cut steps cuts) :
    cuts.flatten = steps := by
  induction cut with
  | last _ => simp
  | closed _ _ ih => simp [ih]

/-- There is one segment more than steps that end their chunk. -/
theorem length_eq {steps : List Step} {cuts : List (List Step)} (cut : Cut steps cuts) :
    cuts.length = steps.countP Step.endsChunk + 1 := by
  induction cut with
  | last quiet => rw [quiet.countP_eq_zero, List.length_singleton]
  | closed done _ ih =>
    rw [List.length_cons, ih, List.countP_append, done.countP_eq_one]
    omega

theorem closed_of_lt {steps : List Step} {cuts : List (List Step)} (cut : Cut steps cuts) {i : Nat}
    {segment : List Step} (at_i : cuts[i]? = some segment) (h : i + 1 < cuts.length) :
    ClosedSegment segment := by
  induction cut generalizing i with
  | last _ => simp at h
  | closed done _ ih =>
    cases i with
    | zero =>
      obtain rfl : _ = segment := by simpa using at_i
      exact done
    | succ i => exact ih (by simpa using at_i) (by simpa using h)

theorem open_of_last {steps : List Step} {cuts : List (List Step)} (cut : Cut steps cuts) {i : Nat}
    {segment : List Step} (at_i : cuts[i]? = some segment) (h : i + 1 = cuts.length) :
    OpenSegment segment := by
  induction cut generalizing i with
  | last quiet =>
    obtain rfl : i = 0 := by simpa using h
    obtain rfl : _ = segment := by simpa using at_i
    exact quiet
  | closed _ cut ih =>
    cases i with
    | zero => exact absurd (List.eq_nil_of_length_eq_zero (by simpa using h.symm)) cut.ne_nil
    | succ i => exact ih (by simpa using at_i) (by simpa using h)

/-- The last segment is empty exactly if nothing follows the last cut. -/
theorem last_eq_nil_iff {steps : List Step} {cuts : List (List Step)} (cut : Cut steps cuts)
    {last : List Step} (h : cuts.getLast? = some last) :
    last = [] ↔ ∀ step ∈ steps.getLast?, step.endsChunk = true := by
  induction cut with
  | @last steps quiet =>
    obtain rfl : steps = last := by simpa using h
    constructor
    · rintro rfl step hs
      simp at hs
    · intro ends
      cases hl : steps.getLast? with
      | none => exact List.getLast?_eq_none_iff.mp hl
      | some step =>
        have ends_step := ends step hl
        rw [quiet step (List.mem_of_getLast? hl)] at ends_step
        cases ends_step
  | @closed segment rest others done cut ih =>
    have last_rest : others.getLast? = some last := by
      rwa [List.getLast?_cons_of_ne_nil cut.ne_nil] at h
    rw [ih last_rest, List.getLast?_append]
    obtain ⟨before, final, rfl, ends, -⟩ := done
    cases hr : rest.getLast? with
    | some step => simp
    | none => simp [ends]

end Cut

theorem segments_of_endsChunk {step : Step} (rest : List Step) (h : step.endsChunk = true) :
    segments (step :: rest) = [step] :: segments rest := by simp [segments, h]

theorem segments_of_quiet {step : Step} {rest first : List Step} {others : List (List Step)}
    (h : step.endsChunk = false) (cut : segments rest = first :: others) :
    segments (step :: rest) = (step :: first) :: others := by simp [segments, h, cut]

theorem cut_segments (steps : List Step) : Cut steps (segments steps) := by
  induction steps with
  | nil => exact .last .nil
  | cons step rest ih =>
    cases h : step.endsChunk with
    | true =>
      rw [segments_of_endsChunk rest h]
      exact .closed ⟨[], step, rfl, h, .nil⟩ ih
    | false =>
      obtain ⟨first, others, cut⟩ := List.exists_cons_of_ne_nil ih.ne_nil
      rw [segments_of_quiet h cut]
      exact .cons h (cut ▸ ih)

theorem segments_ne_nil (steps : List Step) : segments steps ≠ [] := (cut_segments steps).ne_nil

@[simp] theorem flatten_segments (steps : List Step) : (segments steps).flatten = steps :=
  (cut_segments steps).flatten_eq

/-- Steps that end nothing stay together in front of the first segment. -/
theorem segments_append_of_open {before : List Step} (quiet : OpenSegment before)
    {rest first : List Step} {others : List (List Step)} (cut : segments rest = first :: others) :
    segments (before ++ rest) = (before ++ first) :: others := by
  induction before with
  | nil => exact cut
  | cons step before ih =>
    exact segments_of_quiet (quiet step List.mem_cons_self)
      (ih fun s hs => quiet s (List.mem_cons_of_mem _ hs))

theorem segments_of_open {steps : List Step} (quiet : OpenSegment steps) : segments steps = [steps] := by
  have one := segments_append_of_open quiet (rfl : segments [] = [[]])
  rwa [List.append_nil] at one

end ChunkedChain
