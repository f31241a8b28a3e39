import ChunkedChain.Proofs.Compiled

/-!
# Splitting step by step

`Splitter` takes the steps of a chain one at a time. It keeps the chunk counter, the steps and scripts
of the open chunk and the chunks that are closed, and it gives up when the 32-bit counter is at its end.
`run?_eq` says that it gives the chunks of `compile` with their scripts as long as the counter suffices,
and that it gives up otherwise.
-/

namespace ChunkedChain

/-- The state of splitting: the number of the open chunk, its steps and scripts so far, and the closed
chunks with theirs. -/
structure Splitter where
  number : UInt32 := 1
  buffer : List Step := []
  scripts : List ScriptFile := []
  closed : List (Chunk × List ScriptFile) := []

namespace Splitter

/-- The number after `number`, unless the counter is at its end. -/
def next? (number : UInt32) : Option UInt32 :=
  if number.toNat + 1 < UInt32.size then some (number + 1) else none

def place (chain : Chain) (splitter : Splitter) : Place :=
  ⟨chain.id, chain.target.machine, splitter.number⟩

/-- The open chunk, with a continuation if it is closed now, and its scripts. -/
def openChunk (chain : Chain) (splitter : Splitter) (continuation : Option State) :
    Chunk × List ScriptFile :=
  ({ chain := chain.id
     machine := chain.target.machine
     number := splitter.number
     steps := splitter.buffer
     continuation }, splitter.scripts)

/-- Puts a step into the open chunk: it is linked to the last real step there and placed, and the file
of its script is noted. -/
def push (chain : Chain) (splitter : Splitter) (step : Step) : Splitter :=
  let place := splitter.place chain
  let placed := (step.after (Step.lastReal? splitter.buffer)).mapState place.placeState
  { splitter with
    buffer := splitter.buffer ++ [placed]
    scripts := splitter.scripts ++ (place.scriptFile? placed).toList }

/-- Closes the open chunk with a continuation that asks for the next number, and opens the next one. -/
def close? (chain : Chain) (splitter : Splitter) : Option Splitter :=
  (next? splitter.number).map fun next =>
    let asking := (Step.state (Chunk.asksFor chain.id next)).after (Step.lastReal? splitter.buffer)
    { number := next
      buffer := []
      scripts := []
      closed := splitter.closed ++ [splitter.openChunk chain asking.state?] }

/-- Takes one step, and closes the chunk after it if the placed step ends it. -/
def take? (chain : Chain) (splitter : Splitter) (step : Step) : Option Splitter :=
  let pushed := splitter.push chain step
  if pushed.buffer.getLast?.any Step.endsChunk then pushed.close? chain else some pushed

/-- The closed chunks and the open one, which is the last. -/
def finish (chain : Chain) (splitter : Splitter) : List (Chunk × List ScriptFile) :=
  splitter.closed ++ [splitter.openChunk chain none]

/-- All chunks of a chain with their scripts, unless the counter does not suffice. -/
def run? (chain : Chain) : Option (List (Chunk × List ScriptFile)) :=
  (chain.steps.foldlM (take? chain) {}).map (finish chain)

/-- The buffer holds the steps `taken` as they are placed, and the scripts are theirs. -/
structure Holds (chain : Chain) (splitter : Splitter) (taken : List Step) : Prop where
  quiet : OpenSegment taken
  buffer : splitter.buffer = (splitter.place chain).placeSteps none taken
  scripts : splitter.scripts = splitter.buffer.filterMap (splitter.place chain).scriptFile?

variable {chain : Chain} {splitter : Splitter} {taken : List Step}

theorem holds_fresh (number : UInt32) (closed : List (Chunk × List ScriptFile)) :
    Holds chain { number, closed } [] := ⟨.nil, rfl, rfl⟩

theorem push_buffer (holds : splitter.Holds chain taken) (step : Step) :
    (splitter.push chain step).buffer = (splitter.place chain).placeSteps none (taken ++ [step]) := by
  rw [Place.placeSteps_append, Option.or_none, ← holds.buffer]
  rfl

theorem push_scripts (holds : splitter.Holds chain taken) (step : Step) :
    (splitter.push chain step).scripts =
      (splitter.push chain step).buffer.filterMap (splitter.place chain).scriptFile? := by
  simp only [push, List.filterMap_append, ← holds.scripts]
  congr 1

theorem any_endsChunk_push (step : Step) :
    (splitter.push chain step).buffer.getLast?.any Step.endsChunk = step.endsChunk := by
  have compiled := (splitter.place chain).compiled_place (Step.lastReal? splitter.buffer) step
  simp [push, compiled.endsChunk_eq]

theorem holds_push (holds : splitter.Holds chain taken) {step : Step} (h : step.endsChunk = false) :
    (splitter.push chain step).Holds chain (taken ++ [step]) := by
  refine ⟨?_, push_buffer holds step, push_scripts holds step⟩
  intro s hs
  rcases List.mem_append.mp hs with hs | hs
  · exact holds.quiet s hs
  · rwa [List.mem_singleton.mp hs]

theorem openChunk_none (holds : splitter.Holds chain taken) :
    splitter.openChunk chain none =
      (Chunk.ofSegment (splitter.place chain) false taken,
        (Chunk.ofSegment (splitter.place chain) false taken).scripts) := by
  simp only [openChunk, Chunk.ofSegment, Chunk.scripts, Chunk.place, holds.scripts, holds.buffer]
  rfl

theorem take?_of_quiet {step : Step} (h : step.endsChunk = false) :
    splitter.take? chain step = some (splitter.push chain step) := by
  simp [take?, any_endsChunk_push, h]

/-- The open chunk after a step that ends it, closed with the continuation that asks for the next
number, is the chunk of the closed segment. -/
theorem openChunk_push (holds : splitter.Holds chain taken) (step : Step) :
    (splitter.push chain step).openChunk chain
        (Chunk.continuationAfter (splitter.place chain) (splitter.push chain step).buffer) =
      (Chunk.ofSegment (splitter.place chain) true (taken ++ [step]),
        (Chunk.ofSegment (splitter.place chain) true (taken ++ [step])).scripts) := by
  simp only [openChunk, Chunk.ofSegment, Chunk.scripts, Chunk.place, push_scripts holds,
    push_buffer holds]
  rfl

theorem take?_of_endsChunk (holds : splitter.Holds chain taken) {step : Step}
    (h : step.endsChunk = true) :
    splitter.take? chain step =
      if splitter.number.toNat + 1 < UInt32.size then
        some
          { number := splitter.number + 1
            closed := splitter.closed ++
              [(Chunk.ofSegment (splitter.place chain) true (taken ++ [step]),
                (Chunk.ofSegment (splitter.place chain) true (taken ++ [step])).scripts)] }
      else none := by
  rw [← openChunk_push holds]
  simp only [take?, any_endsChunk_push, h, if_true, close?, next?]
  change Option.map _ (if splitter.number.toNat + 1 < UInt32.size then _ else _) = _
  split <;> rfl

/-- From any state on, the rest of the steps yields the chunks of the segments that begin with the open
one, unless the counter ends before. -/
theorem foldlM_take? (holds : splitter.Holds chain taken) (rest : List Step) :
    (rest.foldlM (take? chain) splitter).map (finish chain) =
      if splitter.number.toNat + rest.countP Step.endsChunk < UInt32.size then
        some (splitter.closed ++
          (Chunk.ofSegments (splitter.place chain) (segments (taken ++ rest))).map
            fun chunk => (chunk, chunk.scripts))
      else none := by
  induction rest generalizing splitter taken with
  | nil =>
    have segs : segments (taken ++ []) = [taken ++ []] := segments_append_of_open holds.quiet rfl
    have fits : splitter.number.toNat + [].countP Step.endsChunk < UInt32.size :=
      splitter.number.toNat_lt_size
    rw [segs, if_pos fits]
    simp [finish, Chunk.ofSegments, openChunk_none holds]
  | cons step rest ih =>
    cases h : step.endsChunk with
    | false =>
      have same : taken ++ step :: rest = taken ++ [step] ++ rest := by simp
      rw [List.foldlM_cons, take?_of_quiet h, same, List.countP_cons_of_neg (by simp [h])]
      exact ih (holds_push holds h)
    | true =>
      obtain ⟨first, others, cut⟩ := List.exists_cons_of_ne_nil (segments_ne_nil rest)
      have segs : segments (taken ++ step :: rest) = (taken ++ [step]) :: segments rest :=
        segments_append_of_open holds.quiet (segments_of_endsChunk rest h)
      rw [List.foldlM_cons, take?_of_endsChunk holds h, segs, List.countP_cons_of_pos h]
      by_cases fits : splitter.number.toNat + 1 < UInt32.size
      · have bound : splitter.number.toNat + 1 + rest.countP Step.endsChunk =
            splitter.number.toNat + (rest.countP Step.endsChunk + 1) := by omega
        rw [if_pos fits, Option.bind_eq_bind, Option.bind_some, ih (holds_fresh _ _),
          toNat_add_one fits, bound]
        simp [cut, Chunk.ofSegments, place]
      · rw [if_neg fits, if_neg (by omega)]
        rfl

theorem run?_eq (chain : Chain) :
    run? chain =
      if chain.splits + 2 ≤ UInt32.size then
        some ((compile chain).map fun chunk => (chunk, chunk.scripts))
      else none := by
  have run := foldlM_take? (@holds_fresh chain 1 []) chain.steps
  have bound : (1 : UInt32).toNat + chain.steps.countP Step.endsChunk < UInt32.size ↔
      chain.splits + 2 ≤ UInt32.size := by
    change 1 + chain.splits < UInt32.size ↔ _
    omega
  rw [run?, run]
  simp only [bound]
  rfl

end Splitter

end ChunkedChain
