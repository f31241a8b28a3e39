import ChunkedChain.Proofs.LifeCycle
import ChunkedChain.Proofs.Turns

/-!
# Chains that are extended

Steps that are added at the end of a chain join the chunk that was the last one, and new chunks come after
it. The chunks that were closed before stay what they are in every field, so a node that has applied some of
them already finds the same documents when the longer chain has been written over the shorter one.
-/

namespace ChunkedChain

/-- What follows the steps joins their open segment; the closed ones stay. -/
theorem segments_append {more first : List Step} {others : List (List Step)}
    (cut : segments more = first :: others) (steps : List Step) :
    ∃ closed last, segments steps = closed ++ [last] ∧
      segments (steps ++ more) = closed ++ (last ++ first) :: others := by
  induction steps with
  | nil => exact ⟨[], [], rfl, cut⟩
  | cons step rest ih =>
    obtain ⟨closed, last, own, whole⟩ := ih
    cases ends : step.endsChunk with
    | true =>
      refine ⟨[step] :: closed, last, ?_, ?_⟩
      · rw [segments_of_endsChunk rest ends, own]
        rfl
      · rw [List.cons_append, segments_of_endsChunk _ ends, whole]
        rfl
    | false =>
      -- The step goes to the front of the first segment, which may be the open one.
      cases closed with
      | nil => exact ⟨[], step :: last, segments_of_quiet ends own, segments_of_quiet ends whole⟩
      | cons segment closed =>
        exact ⟨(step :: segment) :: closed, last, segments_of_quiet ends own,
          segments_of_quiet ends whole⟩

namespace Chain

def extend (chain : Chain) (more : List Step) : Chain := { chain with steps := chain.steps ++ more }

theorem splits_le_extend (chain : Chain) (more : List Step) :
    chain.splits ≤ (chain.extend more).splits := by
  have whole : (chain.extend more).splits = chain.splits + more.countP Step.endsChunk :=
    List.countP_append
  omega

/-- The segments of the longer chain, beside those of the shorter one. -/
theorem segments_extend (chain : Chain) (more : List Step) :
    ∃ closed last first others, closed.length = chain.splits ∧
      segments chain.steps = closed ++ [last] ∧
      segments (chain.extend more).steps = closed ++ (last ++ first) :: others := by
  obtain ⟨first, others, cut⟩ := List.exists_cons_of_ne_nil (segments_ne_nil more)
  obtain ⟨closed, last, own, whole⟩ := segments_append cut chain.steps
  have length := chain.length_segments
  rw [own, List.length_append, List.length_singleton] at length
  exact ⟨closed, last, first, others, Nat.add_right_cancel length, own, whole⟩

end Chain

variable {chain : Chain}

/-- A chunk that is closed is the same one in the longer chain. -/
theorem getElem?_compile_extend (more : List Step) {i : Nat} (closed : i < chain.splits) :
    (compile (chain.extend more))[i]? = (compile chain)[i]? := by
  obtain ⟨segs, last, first, others, length, own, whole⟩ := chain.segments_extend more
  have inside : i < segs.length := by omega
  have closed_too : i < (chain.extend more).splits :=
    Nat.lt_of_lt_of_le closed (chain.splits_le_extend more)
  rw [getElem?_compile, getElem?_compile, own, whole, List.getElem?_append_left inside,
    List.getElem?_append_left inside, decide_eq_true closed, decide_eq_true closed_too]
  rfl

/-- The chunk that is open goes on in the longer chain. -/
theorem exists_open_compile_extend (more : List Step) {chunk : Chunk}
    (at_last : (compile chain)[chain.splits]? = some chunk) :
    ∃ other, (compile (chain.extend more))[chain.splits]? = some other ∧
      other.number = chunk.number ∧ chunk.steps <+: other.steps ∧ chunk.scripts <+: other.scripts := by
  obtain ⟨segs, last, first, others, length, own, whole⟩ := chain.segments_extend more
  rw [getElem?_compile, own, ← length, List.getElem?_concat_length] at at_last
  obtain rfl := Option.some.inj at_last
  have steps : (chain.placeAt segs.length).placeSteps none last <+:
      (chain.placeAt segs.length).placeSteps none (last ++ first) := by
    rw [Place.placeSteps_append]
    exact List.prefix_append _ _
  rw [getElem?_compile, whole, ← length, List.getElem?_append_right (Nat.le_refl _), Nat.sub_self]
  exact ⟨_, rfl, rfl, steps, steps.filterMap _⟩

/-- The chunk has this number, and no other one of them has it. -/
structure Chunk.Numbered (chunks : List Chunk) (number : UInt32) (chunk : Chunk) : Prop where
  mem : chunk ∈ chunks
  number_eq : chunk.number = number
  unique : ∀ other ∈ chunks, other.number = number → other = chunk

/-- The chunks of a chain with more steps at its end: those that were closed are the same in every field,
and what was in the open one stands at the beginning of the one with its number. -/
structure Chunk.Extended (chunks longer : List Chunk) : Prop where
  closed : ∀ chunk ∈ chunks.dropLast, Numbered longer chunk.number chunk
  goesOn : ∀ chunk ∈ chunks.getLast?, ∃ other, Numbered longer chunk.number other ∧
    chunk.steps <+: other.steps ∧ chunk.scripts <+: other.scripts

theorem Chunk.numbered_compile (bound : chain.splits + 2 ≤ UInt32.size) {chunk : Chunk}
    (h : chunk ∈ compile chain) : Numbered (compile chain) chunk.number chunk :=
  ⟨h, rfl, fun _ h' same => Store.eq_of_number_eq bound h h' same⟩

theorem mem_compile_extend (more : List Step) {chunk : Chunk} (h : chunk ∈ (compile chain).dropLast) :
    chunk ∈ compile (chain.extend more) := by
  obtain ⟨i, closed, at_i⟩ := mem_dropLast_compile h
  rw [← getElem?_compile_extend more closed] at at_i
  exact List.mem_of_getElem? at_i

theorem extended_compile (more : List Step) (bound : (chain.extend more).splits + 2 ≤ UInt32.size) :
    Chunk.Extended (compile chain) (compile (chain.extend more)) where
  closed := fun _ h => Chunk.numbered_compile bound (mem_compile_extend more h)
  goesOn := by
    intro chunk h
    obtain ⟨other, at_last, number, steps, scripts⟩ :=
      exists_open_compile_extend more (getLast?_compile h)
    exact ⟨other, number ▸ Chunk.numbered_compile bound (List.mem_of_getElem? at_last), steps, scripts⟩

namespace Store

variable {store : Store} {tree after : FileTree} {base : Location}

/-- A document that is as it is to be written stays so, also when the run stops before or after it. -/
theorem document_rewritten (at_root : tree.DirectoryAt store.root base)
    (bound : chain.splits + 2 ≤ UInt32.size) {chunk : Chunk} (h : chunk ∈ compile chain)
    (there : tree.node? (documentLocation base chain.id chain.target.machine chunk.number) =
      some (.file (renderDocument chunk.documentSteps).toUTF8)) :
    (store.createChainFiles chain tree).1.node?
        (documentLocation base chain.id chain.target.machine chunk.number) =
      some (.file (renderDocument chunk.documentSteps).toUTF8) := by
  have traces := Serving.traces_runChain at_root chain
  have not_folder := documentLocation_not_mem_folders base chain.id chain.target.machine chunk.number
  rcases traces.written _ not_folder with ⟨write, ⟨run, mem, last⟩, rewritten⟩ | ⟨-, same⟩
  · obtain rfl := List.mem_singleton.mp mem
    obtain ⟨done, here⟩ := WriteRun.mem_of_last? last
    rw [Serving.runChain_eq_expected at_root] at done
    obtain ⟨other, h', same, rfl⟩ :=
      exists_chunk_of_location (WriteRun.done_expected_subset _ _ done) here
    obtain rfl := eq_of_number_eq bound h h' same
    exact rewritten
  · exact same.trans there

end Store

namespace Chain

open Store

/-- Adding steps at the end of a chain keeps its closed chunks, and what was in the open one. When the
longer chain is written over the shorter one, the documents of the closed chunks stay what they are. -/
theorem extend_keeps_chunks (chain : Chain) (more : List Step)
    (bound : (chain.extend more).splits ≤ UInt32.size - 2) :
    Chunk.Extended (compile chain) (compile (chain.extend more)) ∧
      ∀ (store : Store) (tree after : FileTree) (base : Location) (paths : List FilePath),
        tree.locate store.root = .ok base → tree.node? base = some .directory →
        store.createChainFiles chain tree = (after, .ok paths) →
        ∀ chunk ∈ (compile chain).dropLast,
          let path := store.documentPath chain.id chain.target.machine chunk.number
          let document := Node.file (renderDocument chunk.documentSteps).toUTF8
          after.find path = .ok document ∧
            (store.createChainFiles (chain.extend more) after).1.find path = .ok document := by
  have bound := (chain.extend more).splits_add_two_le bound
  have bound_chain : chain.splits + 2 ≤ UInt32.size :=
    Nat.le_trans (Nat.add_le_add_right (chain.splits_le_extend more) 2) bound
  refine ⟨extended_compile more bound, ?_⟩
  intro store tree after base paths located directory written chunk closed
  have at_root := FileTree.directoryAt_of_locate located directory
  obtain ⟨-, wrote⟩ := wroteAll_of_createChainFiles at_root written
  have h := List.mem_of_mem_dropLast closed
  have at_root_after := wrote.directoryAt_root at_root
  have keeps := (changesOnly_createChainFiles at_root_after (chain.extend more)).keepsDirectories
  have kept := document_rewritten at_root_after bound (mem_compile_extend more closed)
    (wrote.document_at bound_chain h)
  refine ⟨wrote.find_document at_root bound_chain h, ?_⟩
  rw [FileTree.find_of_locate (keeps.locate_eq (wrote.locate_document at_root h))]
  dsimp only [extend] at kept ⊢
  rw [kept]

theorem extend_keeps_twoChunks :
    (twoChunks.extend [.rebootMark]).splits ≤ UInt32.size - 2 ∧
    Chunk.Extended (compile twoChunks) (compile (twoChunks.extend [.rebootMark])) ∧
    saltOnly.locate ⟨"salt"⟩ = .ok [FileName.ofString "salt"] ∧
    saltOnly.node? [FileName.ofString "salt"] = some .directory ∧
    ∃ after, ∃ paths, createChainFiles ⟨⟨"salt"⟩⟩ twoChunks saltOnly = (after, .ok paths) ∧
      ∃ chunk ∈ (compile twoChunks).dropLast,
        let path := documentPath ⟨⟨"salt"⟩⟩ 7 "m1" chunk.number
        let document := Node.file (renderDocument chunk.documentSteps).toUTF8
        after.find path = .ok document ∧
          (createChainFiles ⟨⟨"salt"⟩⟩ (twoChunks.extend [.rebootMark]) after).1.find path =
            .ok document := by
  have bound : (twoChunks.extend [.rebootMark]).splits ≤ UInt32.size - 2 := by
    have two : (twoChunks.extend [.rebootMark]).splits = 2 := by decide +kernel
    rw [two]
    decide
  obtain ⟨after, created⟩ := created_twoChunks
  have two : (compile twoChunks).length = 2 := by
    rw [length_compile]
    decide +kernel
  obtain ⟨chunk, closed⟩ : ∃ chunk, chunk ∈ (compile twoChunks).dropLast :=
    List.exists_mem_of_length_pos (by rw [List.length_dropLast, two]; decide)
  obtain ⟨extended, kept⟩ := extend_keeps_chunks twoChunks [.rebootMark] bound
  exact ⟨bound, extended, locate_saltOnly, directory_saltOnly, after, _, created, chunk, closed,
    kept ⟨⟨"salt"⟩⟩ saltOnly after _ _ locate_saltOnly directory_saltOnly created chunk closed⟩

end Chain

end ChunkedChain
