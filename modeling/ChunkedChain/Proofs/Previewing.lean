import ChunkedChain.Proofs.AnyOrder
import ChunkedChain.Proofs.LifeCycle
import ChunkedChain.Session.Preview

/-!
# Previews and what is written

A preview and the command that writes the files go over the same chains in different ways: one shows the
chunks of one chain after the other, the other one serves all targets at the same time. If the command
succeeds, all the files together are one run of writes. Where two of them go to one document they write the
same, also for two targets on one machine. So in the end every document is the one that the preview shows
for its path.
-/

namespace ChunkedChain

theorem WriteRun.result_of_unfailed {run : WriteRun} (unfailed : run.failure = none) :
    run.result = .ok (run.done.filterMap FileWrite.documentPath?) := by
  rw [result, unfailed]

namespace Store

variable {store : Store}

/-- After writes that all succeed, a run goes on with the next ones. -/
theorem performAll_append {writes : List FileWrite} (more : List FileWrite) {tree : FileTree}
    (unfailed : (store.performAll writes tree).2.failure = none) :
    store.performAll (writes ++ more) tree =
      ((store.performAll more (store.performAll writes tree).1).1,
        (store.performAll writes tree).2.append
          (store.performAll more (store.performAll writes tree).1).2) := by
  induction writes generalizing tree with
  | nil => rfl
  | cons write rest ih =>
    rw [performAll] at unfailed
    rw [List.cons_append, performAll, performAll]
    rcases performed : store.perform write tree with ⟨next, e | path⟩
    · rw [performed] at unfailed
      cases unfailed
    · rw [performed] at unfailed
      dsimp only
      rw [ih unfailed]
      rfl

end Store

namespace Schedule

variable {store : Store} {base : Location} {tree : FileTree} {chains : List Chain}

theorem result_eq_ok_iff (id : UInt64) (runs : List TargetRun) :
    result id runs = .ok () ↔ ∀ target ∈ runs, target.run.failure = none := by
  have none_failed : runs.countP TargetRun.failed = 0 ↔ ∀ target ∈ runs, target.run.failure = none := by
    simp [List.countP_eq_zero, TargetRun.failed]
  unfold result
  dsimp only
  split
  · rename_i failed
    exact iff_of_true rfl (none_failed.mp failed)
  · rename_i failed
    exact iff_of_false (fun same => by cases same) (mt none_failed.mpr failed)

/-- If no target fails, all writes of all targets make up one run. -/
theorem performAll_of_runAll
    (unfailed : ∀ target ∈ (runAll store chains tree).2, target.run.failure = none) :
    ∃ run, store.performAll (chains.flatMap Store.chainWrites) tree =
      ((runAll store chains tree).1, run) ∧ run.failure = none := by
  induction chains generalizing tree with
  | nil => exact ⟨{}, rfl, rfl⟩
  | cons chain rest ih =>
    obtain ⟨first, others⟩ := List.forall_mem_cons.mp unfailed
    obtain ⟨run, ran, run_unfailed⟩ := ih others
    rw [List.flatMap_cons, Store.performAll_append _ first, ran]
    exact ⟨_, rfl, Option.or_eq_none_iff.mpr ⟨first, run_unfailed⟩⟩

theorem wroteAll_runAll (at_root : tree.DirectoryAt store.root base)
    (unfailed : ∀ target ∈ (runAll store chains tree).2, target.run.failure = none) :
    store.WroteAll base (chains.flatMap Store.chainWrites) tree (runAll store chains tree).1 := by
  obtain ⟨run, ran, run_unfailed⟩ := performAll_of_runAll unfailed
  have apart : Store.Apart base (chains.flatMap Store.chainWrites) := by
    intro write mem other _ taken
    obtain ⟨chain, -, of_chain⟩ := List.mem_flatMap.mp mem
    exact Store.location_not_mem_folders of_chain base (other.directories_subset base taken)
  exact (Store.wroteAll_of_performAll at_root apart ran run_unfailed).2

/-- The command has gone through: the 32-bit numbers sufficed for the chunks of every chain, and no target
failed. -/
structure Succeeds (chains : List Chain) (outcome : Outcome) : Prop where
  counted : ∀ chain ∈ chains, (Splitter.run? chain).isSome
  result : outcome.result = .ok ()

theorem Succeeds.splits_le {outcome : Outcome} (succeeds : Succeeds chains outcome) {chain : Chain}
    (mem : chain ∈ chains) : chain.splits + 2 ≤ UInt32.size := by
  have counted := succeeds.counted chain mem
  rw [Splitter.run?_eq] at counted
  by_contra overflow
  rw [if_neg overflow] at counted
  cases counted

end Schedule

/-- A session with these settings works on the store, and the chain file that it is given is this one. -/
structure Settings.Opens (settings : Settings) (env : Environment) (path : FilePath) (tree : FileTree)
    (store : Store) (file : ChainFile) : Prop where
  prepared : ∃ config, (settings.prepare env tree).1 = .ok (config, store)
  loaded : ChainFile.load tree path = .ok file

namespace Preview

open Serving
open Schedule (Refused Succeeds selectedChains twins twinSettings twinEnvironment twinTree)

/-- The chains have been written into the tree as their previews show it. -/
structure Fulfilled (store : Store) (chains : List Chain) (tree : FileTree) (outcome : Outcome) :
    Prop where
  documents : ∀ chain ∈ chains, ∀ view ∈ views store chain,
    outcome.tree.find view.file = .ok (.file view.document.toUTF8)
  scripts : ∀ chain ∈ chains, ∀ view ∈ views store chain, ∀ name ∈ view.scripts,
    ∃ content, outcome.tree.find (store.scriptsDirectory / name) = .ok (.file content)
  ends : ∃ final, Reaches store (start tree chains) final ∧ final.Finished
  tree_eq : ∀ final, Reaches store (start tree chains) final → final.Finished →
    final.tree = outcome.tree
  /-- In whichever order the targets take their turns, each of them returns the paths shown for it. -/
  paths : ∀ final, Reaches store (start tree chains) final → final.Finished →
    final.results = chains.map fun chain => (chain, .ok ((views store chain).map ChunkView.file))

variable {store : Store} {base : Location} {tree after : FileTree} {chains : List Chain} {chain : Chain}

section Written

variable (wrote : store.WroteAll base (chains.flatMap Store.chainWrites) tree after)
  (at_root : tree.DirectoryAt store.root base) (of_chains : chain ∈ chains)

include wrote at_root of_chains

/-- Whichever target writes a document last, it writes what is shown. -/
theorem find_document (same : SameSteps chains) (bound : chain.splits + 2 ≤ UInt32.size) {chunk : Chunk}
    (h : chunk ∈ compile chain) :
    after.find (ChunkView.of store chunk).file =
      .ok (.file (ChunkView.of store chunk).document.toUTF8) := by
  have mem := Store.document_mem_chainWrites h
  have mem_all := List.mem_flatMap.mpr ⟨chain, of_chains, mem⟩
  obtain ⟨last, mem_last, here, there⟩ := wrote.exists_last mem_all
  obtain ⟨twin, of_chains', of_twin⟩ := List.mem_flatMap.mp mem_last
  rw [chainWrites_eq_of_location same of_chains of_chains' mem of_twin here] at of_twin
  obtain ⟨other, h', number, rfl⟩ :=
    Store.exists_chunk_of_location of_twin (here.trans (Store.location_document h base))
  obtain rfl := Store.eq_of_number_eq bound h h' number
  exact wrote.find_eq at_root mem_all there

theorem find_script {chunk : Chunk} (h : chunk ∈ compile chain) {name : String}
    (mem : name ∈ (ChunkView.of store chunk).scripts) :
    ∃ content, after.find (store.scriptsDirectory / name) = .ok (.file content) := by
  obtain ⟨file, of_chunk, rfl⟩ := List.mem_map.mp mem
  have mem_all := List.mem_flatMap.mpr
    ⟨chain, of_chains, Store.script_mem_chainWrites h of_chunk⟩
  obtain ⟨last, -, -, there⟩ := wrote.exists_last mem_all
  exact ⟨last.content, wrote.find_eq at_root mem_all there⟩

end Written

/-- A target that is served alone and does not fail returns the paths that the preview shows. -/
theorem snd_createChainFiles (at_root : tree.DirectoryAt store.root base)
    (unfailed : (store.runChain chain tree).2.failure = none) :
    (store.createChainFiles chain tree).2 = .ok ((views store chain).map ChunkView.file) := by
  have returned : (store.createChainFiles chain tree).2 =
      .ok ((store.runChain chain tree).2.done.filterMap FileWrite.documentPath?) :=
    WriteRun.result_of_unfailed unfailed
  obtain ⟨paths_eq, -⟩ := Store.wroteAll_of_createChainFiles at_root (Store.eq_mk_of_snd returned)
  rw [returned, paths_eq, Store.documentPaths_eq_map, views, List.map_map]
  rfl

section Accepted

variable {settings : Settings} {env : Environment} {path : FilePath} {file : ChainFile}
  {only : List String} (opens : settings.Opens env path tree store file)

include opens

/-- A preview shows the chunks of every chain that is chosen, and writes nothing. -/
theorem run_of_accepted (accepted : ¬ Refused file only) (summaryOnly : Bool) :
    run settings env path only summaryOnly tree =
      .done ((settings.prepare env tree).2.events ++
        (selectedChains file only).flatMap (chainEvents store summaryOnly)) tree := by
  obtain ⟨⟨config, prepared⟩, loaded⟩ := opens
  have chains := Schedule.chains_of_not_refused accepted
  unfold run
  rcases prepare : settings.prepare env tree with ⟨first, log⟩
  rw [prepare] at prepared
  obtain rfl := prepared
  simp only [Schedule.load, loaded, chains, bind, Except.bind, pure, Except.pure]

/-- A selection that is refused would have failed. -/
theorem accepted_of_succeeds
    (succeeds : Succeeds (selectedChains file only) (Schedule.run settings env path only tree)) :
    ¬ Refused file only := by
  obtain ⟨⟨config, prepared⟩, loaded⟩ := opens
  intro refused
  obtain ⟨failure, failed⟩ := Schedule.run_of_refused (Prod.ext prepared rfl) loaded refused
  have ended := succeeds.result
  rw [failed] at ended
  cases ended

theorem fulfilled_run (at_root : tree.DirectoryAt store.root base)
    (succeeds : Succeeds (selectedChains file only) (Schedule.run settings env path only tree)) :
    Fulfilled store (selectedChains file only) tree (Schedule.run settings env path only tree) := by
  have accepted := accepted_of_succeeds opens succeeds
  obtain ⟨⟨config, prepared⟩, loaded⟩ := opens
  have prepared : settings.prepare env tree =
      (.ok (config, store), (settings.prepare env tree).2) := Prod.ext prepared rfl
  have any_order := Schedule.inAnyOrder_run prepared loaded at_root accepted
  have ran := Schedule.run_of_accepted prepared loaded accepted
  have ended := succeeds.result
  rw [ran] at ended
  have unfailed := (Schedule.result_eq_ok_iff _ _).mp ended
  have wrote := Schedule.wroteAll_runAll at_root unfailed
  refine ⟨?_, ?_, Serving.exists_finished store _, any_order.tree_eq, ?_⟩
  · intro chain mem view shown
    obtain ⟨chunk, h, rfl⟩ := List.mem_map.mp shown
    rw [ran]
    exact find_document wrote at_root mem (Schedule.sameSteps_selectedChains file only)
      (succeeds.splits_le mem) h
  · intro chain mem view shown name listed
    obtain ⟨chunk, h, rfl⟩ := List.mem_map.mp shown
    rw [ran]
    exact find_script wrote at_root mem h listed
  · intro final reached finished
    rw [any_order.results_eq final reached finished]
    refine List.map_congr_left fun chain mem => congrArg (Prod.mk chain) ?_
    refine snd_createChainFiles at_root (unfailed ⟨chain, (store.runChain chain tree).2⟩ ?_)
    rw [Serving.runAll_eq_map at_root]
    exact List.mem_map_of_mem mem

end Accepted

/-- What is shown of either of the first two targets: the path of each document and the scripts. -/
def twinViews : List (FilePath × List String) :=
  [(⟨"salt/actionchains/actionchain_7_m_1.sls"⟩, []),
    (⟨"salt/actionchains/actionchain_7_m_2.sls"⟩, ["script_suma_actionchain_7_m_chunk_2_action_5.sh"])]

/-- The text of their last document. -/
def twinDocument : String :=
  "s_chunk_2:\n  cmd.script:\n  - name: salt://actionchains/scripts/" ++
    "script_suma_actionchain_7_m_chunk_2_action_5.sh\n"

theorem views_twins {chain : Chain} (mem : chain ∈ selectedChains twins ["a", "b"]) :
    (views ⟨⟨"salt"⟩⟩ chain).map (fun view => (view.file, view.scripts)) = twinViews ∧
      (views ⟨⟨"salt"⟩⟩ chain).getLast?.map ChunkView.document = some twinDocument := by
  have one : (views ⟨⟨"salt"⟩⟩ ⟨7, ⟨"a", "m"⟩, twins.toSteps⟩).map
        (fun view => (view.file, view.scripts)) = twinViews ∧
      (views ⟨⟨"salt"⟩⟩ ⟨7, ⟨"a", "m"⟩, twins.toSteps⟩).getLast?.map ChunkView.document =
        some twinDocument := by
    decide +kernel
  obtain ⟨target, selected, rfl⟩ := List.mem_map.mp mem
  obtain ⟨minion, machine⟩ := target
  have same : machine = "m" := by
    have selected : ⟨minion, machine⟩ ∈ [(⟨"a", "m"⟩ : Target), ⟨"b", "m"⟩] := selected
    rcases List.mem_cons.mp selected with same | selected
    · exact (Target.mk.inj same).2
    · exact (Target.mk.inj (List.mem_singleton.mp selected)).2
  -- Nothing in the files depends on the minion.
  subst same
  exact one

end Preview

end ChunkedChain
