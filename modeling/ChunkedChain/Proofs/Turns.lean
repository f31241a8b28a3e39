import ChunkedChain.Proofs.WriteTraces
import ChunkedChain.Session.Schedule
import Mathlib.Logic.Relation

/-!
# Targets served in turns

Targets may be served at the same time: in each turn one of them does its next write, and whose turn it is
does not matter. Every target's run goes as if the target were alone, and in the end the tree is the one
that is left when the targets are served one after the other.
-/

namespace ChunkedChain

/-- A target that is being served: the writes still to do, and how those so far went. -/
structure Worker where
  chain : Chain
  waiting : List FileWrite
  run : WriteRun

namespace Worker

/-- A target with all its writes still to do. -/
def start (chain : Chain) : Worker := ⟨chain, Store.chainWrites chain, {}⟩

/-- Does the next write, if there is one. A write that fails is the last. -/
def step (store : Store) (worker : Worker) (tree : FileTree) : FileTree × Worker :=
  match worker.waiting with
  | [] => (tree, worker)
  | write :: rest =>
    let (next, outcome) := store.perform write tree
    (next, ⟨worker.chain, if outcome.isOk then rest else [], worker.run.next write outcome⟩)

theorem step_of_waiting {store : Store} {worker : Worker} {tree : FileTree} {write : FileWrite}
    {rest : List FileWrite} (waiting : worker.waiting = write :: rest) :
    worker.step store tree = ((store.perform write tree).1,
      ⟨worker.chain, if (store.perform write tree).2.isOk then rest else [],
        worker.run.next write (store.perform write tree).2⟩) := by
  rw [step, waiting]

/-- The run so far and the writes still to do make up the run that is expected. -/
structure OnTrack (outcome : FileWrite → Except StoreError FilePath) (worker : Worker) : Prop where
  whole : worker.run.append (.expected outcome worker.waiting) =
    .expected outcome (Store.chainWrites worker.chain)
  subset : worker.waiting ⊆ Store.chainWrites worker.chain
  unfailed : worker.waiting ≠ [] → worker.run.failure = none

namespace OnTrack

variable {outcome : FileWrite → Except StoreError FilePath} {worker : Worker}

theorem start (outcome : FileWrite → Except StoreError FilePath) (chain : Chain) :
    (Worker.start chain).OnTrack outcome :=
  ⟨WriteRun.empty_append _, fun _ mem => mem, fun _ => rfl⟩

theorem next (on_track : worker.OnTrack outcome) {write : FileWrite} {rest : List FileWrite}
    (waiting : worker.waiting = write :: rest) :
    OnTrack outcome ⟨worker.chain, if (outcome write).isOk then rest else [],
      worker.run.next write (outcome write)⟩ := by
  have unfailed : worker.run.failure = none := on_track.unfailed (by simp [waiting])
  have whole := on_track.whole
  have subset := on_track.subset
  rw [waiting, WriteRun.expected] at whole
  rw [waiting] at subset
  cases ends : outcome write with
  | ok path =>
    rw [ends] at whole
    refine ⟨?_, fun other mem => subset (List.mem_cons_of_mem _ mem), fun _ => unfailed⟩
    rw [WriteRun.next_ok unfailed, WriteRun.append_assoc]
    exact whole
  | error e =>
    rw [ends] at whole
    refine ⟨?_, List.nil_subset _, fun more => absurd rfl more⟩
    rw [WriteRun.next_error unfailed]
    exact (WriteRun.append_empty _).trans whole

/-- A worker that is done has had the run that is expected. -/
theorem eq_of_done (on_track : worker.OnTrack outcome) (done : worker.waiting = []) :
    worker = ⟨worker.chain, [], .expected outcome (Store.chainWrites worker.chain)⟩ := by
  obtain ⟨chain, waiting, run⟩ := worker
  obtain rfl : waiting = [] := done
  have whole := on_track.whole
  dsimp only [WriteRun.expected] at whole
  rw [WriteRun.append_empty] at whole
  rw [whole]

end OnTrack

end Worker

structure Serving where
  tree : FileTree
  workers : List Worker

namespace Serving

/-- The targets of these chains with all writes still to do. -/
def start (tree : FileTree) (chains : List Chain) : Serving := ⟨tree, chains.map .start⟩

def Finished (state : Serving) : Prop := ∀ worker ∈ state.workers, worker.waiting = []

/-- The number of writes still to do. -/
def waiting (state : Serving) : Nat := (state.workers.map fun worker => worker.waiting.length).sum

/-- One of the targets does its next write. -/
inductive Turn (store : Store) : Serving → Serving → Prop where
  | step {tree : FileTree} {before after : List Worker} {worker : Worker} : worker.waiting ≠ [] →
      Turn store ⟨tree, before ++ worker :: after⟩
        ⟨(worker.step store tree).1, before ++ (worker.step store tree).2 :: after⟩

/-- The second state comes after the first one in some number of turns. -/
def Reaches (store : Store) : Serving → Serving → Prop := Relation.ReflTransGen (Turn store)

/-- In every turn there is less to do. -/
theorem Turn.waiting_lt {store : Store} {state next : Serving} (turn : Turn store state next) :
    next.waiting < state.waiting := by
  cases turn with
  | @step tree before after worker more =>
    obtain ⟨write, rest, waiting⟩ := List.exists_cons_of_ne_nil more
    have less : (worker.step store tree).2.waiting.length < worker.waiting.length := by
      rw [Worker.step_of_waiting waiting, waiting]
      dsimp only
      split <;> simp
    simp only [Serving.waiting, List.map_append, List.map_cons, List.sum_append, List.sum_cons]
    omega

/-- Serving can always be brought to an end. -/
theorem exists_finished (store : Store) (state : Serving) :
    ∃ final, Reaches store state final ∧ final.Finished := by
  induction measured : state.waiting using Nat.strong_induction_on generalizing state with
  | _ count ih =>
    by_cases finished : state.Finished
    · exact ⟨state, .refl, finished⟩
    · obtain ⟨worker, mem, more⟩ : ∃ worker ∈ state.workers, worker.waiting ≠ [] := by
        simpa [Finished] using finished
      obtain ⟨before, after, workers⟩ := List.append_of_mem mem
      obtain ⟨tree, _⟩ := state
      obtain rfl := workers
      have turn : Turn store ⟨tree, before ++ worker :: after⟩ _ := .step more
      obtain ⟨final, reached, finished⟩ := ih _ (measured ▸ turn.waiting_lt) _ rfl
      exact ⟨final, .head turn reached, finished⟩

variable {store : Store} {base : Location} {tree : FileTree} {chains : List Chain}
  {state next : Serving}

/-- What every state has in common that these chains get to on this tree: the targets are on the way to the
runs that are expected on the first tree, and the tree holds what they have left so far. -/
structure Sound (store : Store) (base : Location) (tree : FileTree) (chains : List Chain)
    (state : Serving) : Prop where
  chains_eq : state.workers.map Worker.chain = chains
  on_track : ∀ worker ∈ state.workers, worker.OnTrack fun write => write.outcome store base tree
  changes : Store.ChangesOnly base (fun _ => True) tree state.tree
  traces : store.Traces base tree (state.workers.map Worker.run) state.tree

theorem sound_start (store : Store) (base : Location) (tree : FileTree) (chains : List Chain) :
    Sound store base tree chains (start tree chains) where
  chains_eq := by simp [start, Function.comp_def, Worker.start]
  on_track := by
    intro worker mem
    obtain ⟨chain, -, rfl⟩ := List.mem_map.mp mem
    exact .start _ chain
  changes := .refl base _ tree
  traces := by
    refine .start store base tree fun run mem => ?_
    obtain ⟨worker, started, rfl⟩ := List.mem_map.mp mem
    obtain ⟨chain, -, rfl⟩ := List.mem_map.mp started
    rfl

/-- A turn keeps all targets on the way: the write meets the same obstacles as on the first tree. -/
theorem Sound.turn (sound : Sound store base tree chains state)
    (at_root : tree.DirectoryAt store.root base) (turn : Turn store state next) :
    Sound store base tree chains next := by
  obtain ⟨chains_eq, on_track, changes, traces⟩ := sound
  cases turn with
  | @step now before after worker more =>
    obtain ⟨write, rest, waiting⟩ := List.exists_cons_of_ne_nil more
    have own := on_track worker (List.mem_append_right _ List.mem_cons_self)
    have clear : write.location base ∉ Store.folders base :=
      Store.location_not_mem_folders (own.subset (waiting ▸ List.mem_cons_self)) base
    have at_root_now := changes.keepsDirectories.directoryAt at_root
    have performed := Store.performed_perform at_root_now write
    have outcome : (store.perform write now).2 = write.outcome store base tree :=
      performed.outcome.trans ((changes.sameObstacles clear).outcome_eq store)
    rw [Worker.step_of_waiting waiting, outcome]
    refine ⟨?_, ?_, ?_, ?_⟩
    · rw [← chains_eq]
      simp
    · intro other mem
      rcases List.mem_append.mp mem with mem | mem
      · exact on_track other (List.mem_append_left _ mem)
      rcases List.mem_cons.mp mem with rfl | mem
      · exact own.next waiting
      · exact on_track other (List.mem_append_right _ (List.mem_cons_of_mem _ mem))
    · exact changes.trans ((Store.changesOnly_perform at_root_now clear).mono fun _ _ => trivial)
    · rw [List.map_append, List.map_cons] at traces ⊢
      exact traces.next at_root_now changes (own.unfailed more) clear

theorem Sound.reaches (at_root : tree.DirectoryAt store.root base)
    (reached : Reaches store (start tree chains) state) : Sound store base tree chains state := by
  induction reached with
  | refl => exact sound_start store base tree chains
  | tail _ turn ih => exact ih.turn at_root turn

/-- In the end every target has had the run that is expected. -/
theorem Sound.workers_eq (sound : Sound store base tree chains state) (finished : state.Finished) :
    state.workers = chains.map fun chain =>
      ⟨chain, [], .expected (fun write => write.outcome store base tree) (Store.chainWrites chain)⟩ := by
  rw [← sound.chains_eq, List.map_map]
  refine (List.map_id _).symm.trans (List.map_congr_left fun worker mem => ?_)
  exact (sound.on_track worker mem).eq_of_done (finished worker mem)

/-- Chains of one id on one machine have the same steps. -/
def SameSteps (chains : List Chain) : Prop :=
  ∀ chain ∈ chains, ∀ other ∈ chains, chain.id = other.id →
    chain.target.machine = other.target.machine → chain.steps = other.steps

theorem chainWrites_congr (same : SameSteps chains) {chain other : Chain} (mem : chain ∈ chains)
    (mem' : other ∈ chains) (ids : chain.id = other.id)
    (machines : chain.target.machine = other.target.machine) :
    Store.chainWrites chain = Store.chainWrites other := by
  unfold Store.chainWrites compile
  rw [ids, machines, same chain mem other mem' ids machines]

/-- Only the targets of one machine write to the same file, and they have the same writes. -/
theorem chainWrites_eq_of_location (same : SameSteps chains) {chain other : Chain}
    (mem : chain ∈ chains) (mem' : other ∈ chains) {write write' : FileWrite}
    (of_chain : write ∈ Store.chainWrites chain) (of_other : write' ∈ Store.chainWrites other)
    (here : write'.location base = write.location base) :
    Store.chainWrites other = Store.chainWrites chain := by
  have own := Store.ownFile_of_mem_chainWrites of_chain base
  have own' := Store.ownFile_of_mem_chainWrites of_other base
  rw [here] at own'
  obtain ⟨ids, machines⟩ := own'.owner_eq own
  exact chainWrites_congr same mem' mem ids machines

theorem content_eq_of_lastAt (same : SameSteps chains)
    {outcome : FileWrite → Except StoreError FilePath} {location : Location} {write write' : FileWrite}
    (last : Store.LastAt base
      (chains.map fun chain => .expected outcome (Store.chainWrites chain)) location write)
    (last' : Store.LastAt base
      (chains.map fun chain => .expected outcome (Store.chainWrites chain)) location write') :
    write.content = write'.content := by
  obtain ⟨run, mem, last⟩ := last
  obtain ⟨run', mem', last'⟩ := last'
  obtain ⟨chain, of_chain, rfl⟩ := List.mem_map.mp mem
  obtain ⟨other, of_other, rfl⟩ := List.mem_map.mp mem'
  obtain ⟨done, here⟩ := WriteRun.mem_of_last? last
  obtain ⟨done', here'⟩ := WriteRun.mem_of_last? last'
  have writes := chainWrites_eq_of_location same of_chain of_other
    (WriteRun.done_expected_subset _ _ done) (WriteRun.done_expected_subset _ _ done')
    (here'.trans here.symm)
  rw [writes, last] at last'
  rw [Option.some.inj last']

/-- All ends are the same. -/
theorem Sound.eq_of_finished (same : SameSteps chains) {final : Serving}
    (sound : Sound store base tree chains state) (finished : state.Finished)
    (sound' : Sound store base tree chains final) (finished' : final.Finished) : state = final := by
  have workers := sound.workers_eq finished
  have workers' := sound'.workers_eq finished'
  have traces := sound.traces
  have traces' := sound'.traces
  rw [workers, List.map_map] at traces
  rw [workers', List.map_map] at traces'
  have trees : state.tree = final.tree :=
    traces.eq traces' fun _ _ _ last last' => content_eq_of_lastAt same last last'
  obtain ⟨now, crew⟩ := state
  obtain ⟨now', crew'⟩ := final
  obtain rfl : now = now' := trees
  exact congrArg (Serving.mk now) (workers.trans workers'.symm)

/-- A target can be served to its end before any other one has a turn. -/
theorem reaches_performAll (store : Store) (chain : Chain) (writes : List FileWrite) {run : WriteRun}
    (unfailed : run.failure = none) (tree : FileTree) (before after : List Worker) :
    Reaches store ⟨tree, before ++ ⟨chain, writes, run⟩ :: after⟩
      ⟨(store.performAll writes tree).1,
        before ++ ⟨chain, [], run.append (store.performAll writes tree).2⟩ :: after⟩ := by
  induction writes generalizing tree run with
  | nil =>
    rw [Store.performAll, WriteRun.append_empty]
    exact .refl
  | cons write rest ih =>
    have turn : Turn store ⟨tree, before ++ ⟨chain, write :: rest, run⟩ :: after⟩ _ :=
      .step (List.cons_ne_nil write rest)
    rw [Worker.step_of_waiting rfl] at turn
    rw [Store.performAll]
    rcases performed : store.perform write tree with ⟨next, e | path⟩
    · rw [performed, WriteRun.next_error unfailed] at turn
      exact .single turn
    · rw [performed, WriteRun.next_ok unfailed] at turn
      have going : (run.append { done := [(write, path)] }).failure = none := by
        simp [WriteRun.append, unfailed]
      have later := ih going next
      rw [WriteRun.append_assoc] at later
      exact .head turn later

end Serving

def TargetRun.worker (target : TargetRun) : Worker := ⟨target.chain, [], target.run⟩

namespace Serving

variable {store : Store} {base : Location} {tree : FileTree} {chains : List Chain} {state : Serving}

/-- Serving the targets one after the other is one of the ways to take turns. -/
theorem reaches_runAll (store : Store) (chains : List Chain) (tree : FileTree) (served : List Worker) :
    Reaches store ⟨tree, served ++ chains.map .start⟩
      ⟨(Schedule.runAll store chains tree).1,
        served ++ (Schedule.runAll store chains tree).2.map TargetRun.worker⟩ := by
  induction chains generalizing tree served with
  | nil => exact .refl
  | cons chain rest ih =>
    have fresh : ({} : WriteRun).failure = none := rfl
    have first := reaches_performAll store chain (Store.chainWrites chain) fresh tree served
      (rest.map .start)
    rw [WriteRun.empty_append] at first
    have later := ih (store.runChain chain tree).1
      (served ++ [⟨chain, [], (store.runChain chain tree).2⟩])
    simp only [List.append_assoc, List.singleton_append] at later
    exact .trans first later

theorem finished_runAll (store : Store) (chains : List Chain) (tree : FileTree) :
    Finished ⟨(Schedule.runAll store chains tree).1,
      (Schedule.runAll store chains tree).2.map TargetRun.worker⟩ := by
  intro worker mem
  obtain ⟨target, -, rfl⟩ := List.mem_map.mp mem
  rfl

/-- However the turns are taken, serving ends where it ends when the targets are served one after the
other. -/
theorem eq_runAll_of_finished (at_root : tree.DirectoryAt store.root base) (same : SameSteps chains)
    (reached : Reaches store (start tree chains) state) (finished : state.Finished) :
    state = ⟨(Schedule.runAll store chains tree).1,
      (Schedule.runAll store chains tree).2.map TargetRun.worker⟩ :=
  (Sound.reaches at_root reached).eq_of_finished same finished
    (.reaches at_root (reaches_runAll store chains tree [])) (finished_runAll store chains tree)

/-- A target that is served alone has the run that is expected. -/
theorem runChain_eq_expected (at_root : tree.DirectoryAt store.root base) (chain : Chain) :
    (store.runChain chain tree).2 =
      .expected (fun write => write.outcome store base tree) (Store.chainWrites chain) := by
  have workers := (Sound.reaches at_root (reaches_runAll store [chain] tree [])).workers_eq
    (finished_runAll store [chain] tree)
  exact congrArg Worker.run (List.singleton_inj.mp workers)

/-- Served one after the other, every target has the run that it has alone. -/
theorem runAll_eq_map (at_root : tree.DirectoryAt store.root base) (chains : List Chain) :
    (Schedule.runAll store chains tree).2 =
      chains.map fun chain => ⟨chain, (store.runChain chain tree).2⟩ := by
  have workers := (Sound.reaches at_root (reaches_runAll store chains tree [])).workers_eq
    (finished_runAll store chains tree)
  have injective : Function.Injective TargetRun.worker := by
    rintro ⟨chain, run⟩ ⟨chain', run'⟩ h
    cases h
    rfl
  refine List.map_injective_iff.mpr injective ?_
  refine workers.trans ?_
  rw [List.map_map]
  refine List.map_congr_left fun chain _ => ?_
  rw [Function.comp_apply, TargetRun.worker, runChain_eq_expected at_root]

/-- A target that is served leaves what its run has done. -/
theorem traces_runChain (at_root : tree.DirectoryAt store.root base) (chain : Chain) :
    store.Traces base tree [(store.runChain chain tree).2] (store.runChain chain tree).1 :=
  (Sound.reaches at_root (reaches_runAll store [chain] tree [])).traces

end Serving

end ChunkedChain
