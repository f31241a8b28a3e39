import ChunkedChain.Proofs.Chunking
import ChunkedChain.Proofs.Naming
import ChunkedChain.Proofs.Ordering

/-!
# The order of a chunk's document

The states of a compiled chunk are a line if the steps of the chain come without requisites. So the
document of the chunk can be put into an order only if no two of its steps have the same id, and then
the order is that of the steps. An argument with the name `require` is written like a requisite: where
it lists an entry of the same document, distinct ids are not enough.
-/

namespace ChunkedChain

theorem filterMap_id? (steps : List Step) :
    steps.filterMap Step.id? = (steps.filterMap Step.state?).map State.id :=
  (List.map_filterMap (f := Step.state?)).symm

namespace Place

variable (place : Place)

theorem map_id_linkStates (previous : Option State) (states : List State) :
    (place.linkStates previous states).map State.id =
      (states.map State.id).map (· ++ StateId.chunkSuffix place.chunk) := by
  induction states generalizing previous with
  | nil => rfl
  | cons state rest ih => simp [linkStates, ih, placeState]

theorem isChain_linkStates (p : State) {states : List State}
    (plain : ∀ s ∈ states, s.requisites.toList = []) :
    (p :: place.linkStates (some p) states).IsChain State.Follows := by
  induction states generalizing p with
  | nil => exact .singleton p
  | cons state rest ih =>
    have next := ih (place.placeState (state.follow (some p)))
      fun s hs => plain s (List.mem_cons_of_mem _ hs)
    have linked : State.Follows p (place.placeState (state.follow (some p))) :=
      State.follows_follow p (plain state List.mem_cons_self)
    exact .cons_cons linked next

theorem line_linkStates {states : List State} (plain : ∀ s ∈ states, s.requisites.toList = []) :
    StateLine (place.linkStates none states) := by
  cases states with
  | nil => exact ⟨by simp [linkStates], .nil⟩
  | cons state rest =>
    refine ⟨?_, place.isChain_linkStates _ fun s hs => plain s (List.mem_cons_of_mem _ hs)⟩
    intro s hs
    obtain rfl : place.placeState state = s := by simpa [linkStates, State.follow] using hs
    exact plain state List.mem_cons_self

end Place

namespace Chunk

/-- No argument of a module run in the chunk lists, under the name `require`, an entry of the chunk's
document. -/
def ListsNoEntry (chunk : Chunk) : Prop :=
  ∀ s, Step.state s ∈ chunk.steps → ∀ module y, (module, y) ∈ s.task.listed →
    y ∉ Entries.keys (Document.entries chunk.documentSteps)

/-- The chunk is made of `input`, and its document can be put into an order only if the ids of the input
differ; the order is then that of the steps, if no argument adds to what the steps require. -/
structure OrderedFrom (input : List Step) (chunk : Chunk) : Prop where
  compiled : List.Forall₂ (Step.Compiled chunk.place) input chunk.steps
  nodup_of_acyclic : Document.Acyclic (Document.entries chunk.documentSteps) →
    (input.filterMap Step.id?).Nodup
  acyclic_of_nodup : chunk.ListsNoEntry → (input.filterMap Step.id?).Nodup →
    Document.Acyclic (Document.entries chunk.documentSteps)
  keys_of_nodup : (input.filterMap Step.id?).Nodup →
    Entries.keys (Document.entries chunk.documentSteps) = chunk.documentSteps.filterMap Step.id?
  path_of_nodup : chunk.ListsNoEntry → (input.filterMap Step.id?).Nodup →
    Document.Path (Document.entries chunk.documentSteps)

theorem filterMap_documentSteps (chunk : Chunk) :
    chunk.documentSteps.filterMap Step.state? =
      chunk.steps.filterMap Step.state? ++ chunk.continuation.toList := by
  rw [documentSteps, List.filterMap_append]
  cases chunk.continuation <;> rfl

theorem line_documentSteps (place : Place) (closed : Bool) {segment : List Step}
    (marked : MarkLast segment) (plain : ∀ s, Step.state s ∈ segment → s.requisites.toList = []) :
    StateLine ((ofSegment place closed segment).documentSteps.filterMap Step.state?) := by
  have line : StateLine ((place.placeSteps none segment).filterMap Step.state?) := by
    rw [place.filterMap_placeSteps marked]
    exact place.line_linkStates fun s hs => plain s (mem_filterMap_state?.mp hs)
  rw [filterMap_documentSteps]
  cases closed with
  | false => simpa [ofSegment] using line
  | true =>
    have continued : (ofSegment place true segment).continuation.toList =
        [(asksFor place.chain (place.chunk + 1)).follow
          ((place.placeSteps none segment).filterMap Step.state?).getLast?] := by
      rw [ofSegment, if_pos rfl, continuationAfter_eq]
      rfl
    rw [continued]
    exact line.concat rfl

theorem ids_documentSteps (place : Place) (closed : Bool) {segment : List Step}
    (marked : MarkLast segment) :
    (ofSegment place closed segment).documentSteps.filterMap Step.id? =
      (segment.filterMap Step.id?).map (· ++ StateId.chunkSuffix place.chunk) ++
        if closed then [nextId] else [] := by
  have steps : ((ofSegment place closed segment).steps).filterMap Step.state? =
      place.linkStates none (segment.filterMap Step.state?) := place.filterMap_placeSteps marked
  rw [filterMap_id?, filterMap_id?, filterMap_documentSteps, steps, List.map_append,
    place.map_id_linkStates]
  refine congrArg _ ?_
  cases closed with
  | false => rfl
  | true =>
    rw [ofSegment, if_pos rfl, continuationAfter_eq]
    simp [asksFor]

/-- The ids in a document differ exactly if those of the input do. -/
theorem nodup_documentSteps (place : Place) (closed : Bool) {segment : List Step}
    (marked : MarkLast segment) :
    ((ofSegment place closed segment).documentSteps.filterMap Step.id?).Nodup ↔
      (segment.filterMap Step.id?).Nodup := by
  have suffix_inj : Function.Injective (· ++ StateId.chunkSuffix place.chunk) :=
    fun _ _ same => (StateId.append_chunkSuffix_inj same).1
  rw [ids_documentSteps place closed marked, List.nodup_append, List.nodup_map_iff suffix_inj]
  constructor
  · rintro ⟨nodup, -, -⟩
    exact nodup
  · intro nodup
    refine ⟨nodup, by cases closed <;> simp, ?_⟩
    intro x hx y hy
    obtain ⟨id, -, rfl⟩ := List.mem_map.mp hx
    cases closed with
    | false => cases hy
    | true =>
      obtain rfl : y = nextId := by simpa using hy
      exact StateId.append_chunkSuffix_ne_nextId id place.chunk

theorem listed_continuation (place : Place) (closed : Bool) (segment : List Step) {c : State}
    (h : c ∈ (ofSegment place closed segment).continuation) : c.task.listed = [] := by
  cases closed with
  | false => cases h
  | true =>
    rw [ofSegment, if_pos rfl, continuationAfter_eq] at h
    obtain rfl := Option.some.inj h
    rw [State.follow_task]
    simp [asksFor, Task.listed]

theorem orderedFrom_of_line {input : List Step} {chunk : Chunk}
    (compiled : List.Forall₂ (Step.Compiled chunk.place) input chunk.steps)
    (line : StateLine (chunk.documentSteps.filterMap Step.state?))
    (nodup_iff : (chunk.documentSteps.filterMap Step.id?).Nodup ↔ (input.filterMap Step.id?).Nodup)
    (continuation : ∀ c ∈ chunk.continuation, c.task.listed = []) : OrderedFrom input chunk := by
  have doc := Document.entries_filterMap chunk.documentSteps
  have keys (nodup : (input.filterMap Step.id?).Nodup) :
      Entries.keys (Document.entries chunk.documentSteps) = chunk.documentSteps.filterMap Step.id? := by
    rw [← nodup_iff, filterMap_id?] at nodup
    rw [← doc, Document.entries_of_nodup nodup, filterMap_id?, Entries.keys, List.map_map]
    rfl
  have path (own : chunk.ListsNoEntry) (nodup : (input.filterMap Step.id?).Nodup) :
      Document.Path (Document.entries chunk.documentSteps) := by
    have keys := keys nodup
    rw [← nodup_iff, filterMap_id?] at nodup
    rw [← doc]
    refine line.path_of_nodup nodup ?_
    intro s hs module y lists
    rw [filterMap_documentSteps] at hs
    rcases List.mem_append.mp hs with here | last
    · rw [← filterMap_id?, ← keys]
      exact own s (mem_filterMap_state?.mp here) module y lists
    · rw [continuation s (Option.mem_toList.mp last)] at lists
      cases lists
  refine ⟨compiled, ?_, ?_, keys, path⟩
  · intro acyclic
    rw [← doc] at acyclic
    rw [← nodup_iff, filterMap_id?]
    exact line.nodup_of_acyclic acyclic
  · intro own nodup
    refine (path own nodup).acyclic ?_
    rw [keys nodup]
    exact nodup_iff.mpr nodup

end Chunk

/-- Steps without requisites are written into documents that can be put into an order only if no id is
repeated; then the entries are required one by one in the order of the steps, unless an argument with
the name `require` lists an entry of its own document. -/
theorem compile_orders_documents (chain : Chain)
    (plain : ∀ s, Step.state s ∈ chain.steps → s.requisites.toList = []) :
    ∃ inputs : List (List Step), inputs.flatten = chain.steps ∧
      List.Forall₂ Chunk.OrderedFrom inputs (compile chain) := by
  refine ⟨segments chain.steps, flatten_segments _, forall₂_compile chain fun i segment at_i => ?_⟩
  have marked := markLast_segments at_i
  have plain_segment : ∀ s, Step.state s ∈ segment → s.requisites.toList = [] := by
    intro s hs
    refine plain s ?_
    rw [← flatten_segments chain.steps]
    exact List.mem_flatten_of_mem (List.mem_of_getElem? at_i) hs
  exact Chunk.orderedFrom_of_line (Place.forall₂_placeSteps _ none segment)
    (Chunk.line_documentSteps _ _ marked plain_segment) (Chunk.nodup_documentSteps _ _ marked)
    fun c hc => Chunk.listed_continuation _ _ segment hc

/-- Steps without requisites, around a reboot across which an id comes again. -/
def plainSteps : Chain where
  id := 1
  target := ⟨"node", "m1"⟩
  steps :=
    [.state ⟨"a", .run "pkg.install" [("name", .text "vim")] none, .empty⟩,
      .state ⟨"b", .script ⟨5, "exit 0", none, none, none⟩, .empty⟩, .rebootMark,
      .state ⟨"a", .run "test.ping" [] none, .empty⟩]

theorem compile_orders_plainSteps :
    (∀ s, Step.state s ∈ plainSteps.steps → s.requisites.toList = []) ∧
      ∃ inputs : List (List Step), inputs.flatten = plainSteps.steps ∧
        List.Forall₂ Chunk.OrderedFrom inputs (compile plainSteps) := by
  have plain : ∀ s, Step.state s ∈ plainSteps.steps → s.requisites.toList = [] := by
    intro s hs
    simp only [plainSteps, List.mem_cons, Step.state.injEq, reduceCtorEq, List.not_mem_nil, or_false,
      false_or] at hs
    rcases hs with rfl | rfl | rfl <;> rfl
  exact ⟨plain, compile_orders_documents plainSteps plain⟩

/-- Two steps with ids of their own, the first of which lists the second in an argument. -/
def listingPair : Chain where
  id := 1
  target := ⟨"node", "m1"⟩
  steps :=
    [.state ⟨"a", .run "test.ping"
        [("require", .list [.object [("module", .text "b_chunk_1")]])] none, .empty⟩,
      .state ⟨"b", .run "test.ping" [] none, .empty⟩]

/-- The body of a run that lists one state under `require`. -/
def pingBody (id : String) : Value :=
  .object [("module.run", .list
    [.entry "name" (.text "test.ping"), .entry "require" (.list [.object [("module", .text id)]])])]

theorem requires_pingBody (id : String) : (pingBody id).requires = [("module", id)] := by
  simp [pingBody, Value.requires, Value.fields?, Value.requiredBy_entry, Value.targets, Value.text?]

theorem plain_listingPair : ∀ s, Step.state s ∈ listingPair.steps → s.requisites.toList = [] := by
  intro s hs
  simp only [listingPair, List.mem_cons, Step.state.injEq, List.not_mem_nil, or_false] at hs
  rcases hs with rfl | rfl <;> rfl

theorem compile_listingPair :
    compile listingPair = [Chunk.ofSegment ⟨1, "m1", 1⟩ false listingPair.steps] := by
  refine compile_of_open fun s hs => ?_
  simp only [listingPair, List.mem_cons, List.not_mem_nil, or_false] at hs
  rcases hs with rfl | rfl <;> decide +kernel

theorem entries_listingPair :
    Document.entries (Chunk.ofSegment ⟨1, "m1", 1⟩ false listingPair.steps).documentSteps =
      [("a_chunk_1", pingBody "b_chunk_1"), ("b_chunk_1", pingBody "a_chunk_1")] := rfl

/-- Distinct ids alone do not make a document without a cycle. -/
theorem cyclic_listingPair :
    (∀ s, Step.state s ∈ listingPair.steps → s.requisites.toList = []) ∧
      listingPair.splits ≤ UInt32.size - 2 ∧
      ∃ chunk, compile listingPair = [chunk] ∧ (listingPair.steps.filterMap Step.id?).Nodup ∧
        ¬ Document.Acyclic (Document.entries chunk.documentSteps) := by
  refine ⟨plain_listingPair, by decide +kernel, _, compile_listingPair, by decide, ?_⟩
  rw [entries_listingPair]
  intro acyclic
  have there : Document.Requires
      [("a_chunk_1", pingBody "b_chunk_1"), ("b_chunk_1", pingBody "a_chunk_1")]
      "a_chunk_1" "b_chunk_1" := by
    refine ⟨by simp [Entries.keys], _, rfl, "module", ?_⟩
    rw [requires_pingBody]
    exact List.mem_cons_self
  have back : Document.Requires
      [("a_chunk_1", pingBody "b_chunk_1"), ("b_chunk_1", pingBody "a_chunk_1")]
      "b_chunk_1" "a_chunk_1" := by
    refine ⟨by simp [Entries.keys], _, rfl, "module", ?_⟩
    rw [requires_pingBody]
    exact List.mem_cons_self
  exact acyclic "a_chunk_1" (.tail (.single there) back)

end ChunkedChain
