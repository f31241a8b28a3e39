import ChunkedChain.Proofs.Turns

/-!
# Scheduling in any order

The targets of a chain are served at the same time. What the command leaves and how it ends is the same for
every order in which their writes are done: the tree, the result of each target, and the number of those
that failed.
-/

namespace ChunkedChain

/-- Where the ending of the plural is taken off a line, the noun ends. -/
theorem head?_dropWhile_countOf {noun : String} {c : Char} (ends : noun.toList.getLast? = some c)
    (singular : c ≠ 's') (front : String) (count : Nat) :
    ((front ++ countOf count noun).toList.reverse.dropWhile (· = 's')).head? = some c := by
  obtain ⟨letters, shape⟩ := List.getLast?_eq_some_iff.mp ends
  have plural : "s".toList = ['s'] := rfl
  unfold countOf
  split
  · simp [shape, singular]
  · simp [shape, plural, singular]

/-- A line that counts chunks does not count targets. -/
theorem countOf_chunk_ne_countOf_target (front front' : String) (count count' : Nat) :
    front ++ countOf count "chunk" ≠ front' ++ countOf count' "target" := by
  intro same
  have last : "chunk".toList.getLast? = some 'k' := by decide
  have last' : "target".toList.getLast? = some 't' := by decide
  have chunk := head?_dropWhile_countOf last (by decide) front count
  have target := head?_dropWhile_countOf last' (by decide) front' count'
  rw [same, target] at chunk
  exact absurd chunk (by decide)

theorem Event.success_inj {text other : String} (h : success text = success other) : text = other := by
  simpa [success] using h

theorem Settings.mem_unlessQuiet {settings : Settings} {events : List Event} {event : Event} :
    event ∈ settings.unlessQuiet events ↔ settings.quiet = false ∧ event ∈ events := by
  unfold unlessQuiet
  split <;> simp_all

theorem WriteRun.isOk_result (run : WriteRun) : run.result.isOk = run.failure.isNone := by
  unfold result
  cases run.failure <;> rfl

namespace Schedule

/-- The selection names a minion that is no target, or there are no targets at all. -/
def Refused (file : ChainFile) (only : List String) : Prop :=
  file.targets = [] ∨ ∃ minion ∈ only, ∀ target ∈ file.targets, target.minion ≠ minion

/-- Whether a selection takes a target in: it names the minion, or nobody at all. -/
def Selects (only : List String) (target : Target) : Prop := only = [] ∨ target.minion ∈ only

instance (only : List String) : DecidablePred (Selects only) := fun _ =>
  inferInstanceAs (Decidable (_ ∨ _))

/-- The chains of the selected targets, in the order of the chain file. -/
def selectedChains (file : ChainFile) (only : List String) : List Chain :=
  (file.targets.filter fun target => Selects only target).map fun target =>
    ⟨file.id, target, file.toSteps⟩

theorem chosen_eq (file : ChainFile) (only : List String) :
    file.chosen only = file.targets.filter fun target => Selects only target := by
  refine List.filter_congr fun target _ => ?_
  cases only <;> simp [Selects]

theorem chains_of_refused {file : ChainFile} {only : List String} (refused : Refused file only) :
    ∃ failure, file.chains only = .error failure := by
  unfold ChainFile.chains
  split
  · exact ⟨_, rfl⟩
  · rename_i some_target
    obtain none | ⟨minion, mem, unknown⟩ := refused
    · exact absurd (List.isEmpty_iff.mpr none) some_target
    · split
      · exact ⟨_, rfl⟩
      · rename_i all_known
        have known := List.find?_eq_none.mp all_known minion mem
        simp at known
        obtain ⟨target, mem_target, same⟩ := known
        exact absurd same (unknown target mem_target)

theorem chains_of_not_refused {file : ChainFile} {only : List String} (accepted : ¬ Refused file only) :
    file.chains only = .ok (selectedChains file only) := by
  obtain ⟨some_target, known⟩ := not_or.mp accepted
  have all_known : (only.find? fun minion => !file.targets.any (·.minion == minion)) = none := by
    refine List.find?_eq_none.mpr fun minion mem => ?_
    simp
    by_contra unknown
    exact known ⟨minion, mem, by simpa using unknown⟩
  rw [ChainFile.chains, if_neg (by simpa using some_target), all_known, chosen_eq]
  rfl

/-- Chains made from one file have the same steps. -/
theorem sameSteps_selectedChains (file : ChainFile) (only : List String) :
    Serving.SameSteps (selectedChains file only) := by
  intro chain mem other mem' _ _
  obtain ⟨target, -, rfl⟩ := List.mem_map.mp mem
  obtain ⟨target', -, rfl⟩ := List.mem_map.mp mem'
  rfl

def scheduledLine (chain : UInt64) (count : Nat) : Event :=
  .success ("Action chain " ++ decimal chain.toNat ++ " scheduled on " ++ countOf count "target")

theorem scheduledLine_not_mem_log (chain : UInt64) (count : Nat) (log : Log) :
    scheduledLine chain count ∉ log.events := by
  intro mem
  obtain ⟨entry, -, same⟩ := List.mem_map.mp mem
  cases same

theorem scheduledLine_not_mem_title (chain : UInt64) (count : Nat) (store : Store) (file : ChainFile)
    (chains : List Chain) : scheduledLine chain count ∉ title store file chains := by
  simp [title, scheduledLine, Event.heading, Event.field, Event.blank, Event.success]

/-- What is shown of a target counts its chunks. -/
theorem scheduledLine_not_mem_target (chain : UInt64) (count : Nat) (settings : Settings)
    (target : TargetRun) : scheduledLine chain count ∉ target.events settings := by
  intro mem
  unfold TargetRun.events at mem
  dsimp only at mem
  split at mem
  · rcases List.mem_append.mp mem with mem | mem
    · have same := Event.success_inj (List.mem_singleton.mp (Settings.mem_unlessQuiet.mp mem).2)
      exact countOf_chunk_ne_countOf_target _ _ _ _ same.symm
    · unfold Settings.details at mem
      split at mem
      · obtain ⟨path, -, same⟩ := List.mem_map.mp mem
        simp [scheduledLine, Event.detail, Event.success] at same
      · cases mem
  · simp [scheduledLine, Event.problem, Event.detail, Event.success] at mem

section Accepted

variable {settings : Settings} {env : Environment} {path : FilePath} {only : List String}
  {tree : FileTree} {config : Config} {store : Store} {log : Log} {file : ChainFile}
  (prepared : settings.prepare env tree = (.ok (config, store), log))
  (loaded : ChainFile.load tree path = .ok file)

include prepared loaded

theorem run_of_refused (refused : Refused file only) :
    ∃ failure, run settings env path only tree = .failed failure log.events tree := by
  obtain ⟨failure, none⟩ := chains_of_refused refused
  refine ⟨failure, ?_⟩
  simp [run, prepared, load, loaded, none, bind, Except.bind]

/-- What the command does once its file is read: the targets are served one after the other, then the line
that counts them follows if none failed. -/
theorem run_of_accepted (accepted : ¬ Refused file only) :
    run settings env path only tree =
      let (last, runs) := runAll store (selectedChains file only) tree
      { events := log.events ++ settings.unlessQuiet (title store file (selectedChains file only))
          ++ (runs.flatMap fun target => (Store.createLog target.chain target.run).events)
          ++ runs.flatMap (TargetRun.events settings)
          ++ if (result file.id runs).isOk then settings.unlessQuiet (closing file.id runs) else []
        tree := last
        result := result file.id runs } := by
  have chains := chains_of_not_refused accepted
  simp only [run, prepared, load, loaded, chains, bind, Except.bind, pure, Except.pure]

/-- The line that counts the targets is shown after a success only, unless the session is quiet. -/
theorem scheduledLine_mem_run (accepted : ¬ Refused file only) (count : Nat) :
    scheduledLine file.id count ∈ (run settings env path only tree).events ↔
      (run settings env path only tree).result = .ok () ∧ settings.quiet = false ∧
        scheduledLine file.id count ∈ closing file.id (runAll store (selectedChains file only) tree).2 := by
  rw [run_of_accepted prepared loaded accepted]
  dsimp only
  generalize (runAll store (selectedChains file only) tree).2 = runs
  have not_title : scheduledLine file.id count ∉
      settings.unlessQuiet (title store file (selectedChains file only)) := by
    intro mem
    exact scheduledLine_not_mem_title _ _ _ _ _ (Settings.mem_unlessQuiet.mp mem).2
  have not_created : scheduledLine file.id count ∉
      runs.flatMap fun target => (Store.createLog target.chain target.run).events := by
    intro mem
    obtain ⟨target, -, mem⟩ := List.mem_flatMap.mp mem
    exact scheduledLine_not_mem_log _ _ _ mem
  have not_served : scheduledLine file.id count ∉ runs.flatMap (TargetRun.events settings) := by
    intro mem
    obtain ⟨target, -, mem⟩ := List.mem_flatMap.mp mem
    exact scheduledLine_not_mem_target _ _ _ _ mem
  simp only [List.mem_append, scheduledLine_not_mem_log, not_title, not_created, not_served, false_or]
  rcases result file.id runs with failure | ⟨⟩
  · simp [Except.isOk, Except.toBool]
  · simp [Except.isOk, Except.toBool, Settings.mem_unlessQuiet]

end Accepted

end Schedule

namespace Serving

/-- How the targets ended: with the paths of their documents, or with the first failure. -/
def results (state : Serving) : List (Chain × Except StoreError (List FilePath)) :=
  state.workers.map fun worker => (worker.chain, worker.run.result)

/-- How each target ends that is served alone on the tree. -/
def aloneResults (store : Store) (chains : List Chain) (tree : FileTree) :
    List (Chain × Except StoreError (List FilePath)) :=
  chains.map fun chain => (chain, (store.createChainFiles chain tree).2)

end Serving

namespace Schedule

def failures (results : List (Chain × Except StoreError (List FilePath))) : Nat :=
  results.countP fun (_, result) => !result.isOk

open Serving

/-- The outcome of the command says how the targets of the chains end on the tree, in whichever order they
take their turns. -/
structure InAnyOrder (settings : Settings) (store : Store) (file : ChainFile) (chains : List Chain)
    (tree : FileTree) (outcome : Outcome) : Prop where
  ends : ∀ state, Reaches store (start tree chains) state →
    ∃ final, Reaches store state final ∧ final.Finished
  results_eq : ∀ final, Reaches store (start tree chains) final → final.Finished →
    final.results = aloneResults store chains tree
  tree_eq : ∀ final, Reaches store (start tree chains) final → final.Finished →
    final.tree = outcome.tree
  succeeds_iff : outcome.result = .ok () ↔ failures (aloneResults store chains tree) = 0
  counts : failures (aloneResults store chains tree) ≠ 0 → outcome.result =
    .error (.targetsFailed file.id (failures (aloneResults store chains tree)) chains.length)
  scheduled : ∀ count, scheduledLine file.id count ∈ outcome.events →
    failures (aloneResults store chains tree) = 0
  scheduled_of_succeeds : failures (aloneResults store chains tree) = 0 → settings.quiet = false →
    scheduledLine file.id chains.length ∈ outcome.events

variable {store : Store} {base : Location} {tree : FileTree}

theorem results_eq_alone (at_root : tree.DirectoryAt store.root base) {chains : List Chain}
    (same : SameSteps chains) {final : Serving} (reached : Reaches store (start tree chains) final)
    (finished : final.Finished) : final.results = aloneResults store chains tree := by
  rw [eq_runAll_of_finished at_root same reached finished, results, runAll_eq_map at_root]
  simp [aloneResults, TargetRun.worker, Store.createChainFiles]

/-- The targets that failed are counted as if each were served alone. -/
theorem result_runAll (at_root : tree.DirectoryAt store.root base) (id : UInt64) (chains : List Chain) :
    result id (runAll store chains tree).2 =
      if failures (aloneResults store chains tree) = 0 then .ok ()
      else .error (.targetsFailed id (failures (aloneResults store chains tree)) chains.length) := by
  have failed : (runAll store chains tree).2.countP TargetRun.failed =
      failures (aloneResults store chains tree) := by
    rw [runAll_eq_map at_root, failures, aloneResults, List.countP_map, List.countP_map]
    refine List.countP_congr fun chain _ => ?_
    simp [TargetRun.failed, Store.createChainFiles, WriteRun.isOk_result]
  have length : (runAll store chains tree).2.length = chains.length := by
    rw [runAll_eq_map at_root, List.length_map]
  rw [result, failed, length]

theorem inAnyOrder_run {settings : Settings} {env : Environment} {path : FilePath} {only : List String}
    {config : Config} {log : Log} {file : ChainFile}
    (prepared : settings.prepare env tree = (.ok (config, store), log))
    (loaded : ChainFile.load tree path = .ok file) (at_root : tree.DirectoryAt store.root base)
    (accepted : ¬ Refused file only) :
    InAnyOrder settings store file (selectedChains file only) tree (run settings env path only tree) := by
  have same := sameSteps_selectedChains file only
  have ran := run_of_accepted prepared loaded accepted
  have result_eq := (congrArg Outcome.result ran).trans
    (result_runAll at_root file.id (selectedChains file only))
  have scheduled := scheduledLine_mem_run prepared loaded accepted
  have succeeds_iff : (run settings env path only tree).result = .ok () ↔
      failures (aloneResults store (selectedChains file only) tree) = 0 := by
    rw [result_eq]
    split <;> simp_all
  constructor
  · intro state _
    exact exists_finished store state
  · intro final reached finished
    exact results_eq_alone at_root same reached finished
  · intro final reached finished
    rw [eq_runAll_of_finished at_root same reached finished, ran]
  · exact succeeds_iff
  · intro failed
    rw [result_eq, if_neg failed]
  · intro count shown
    exact succeeds_iff.mp ((scheduled count).mp shown).1
  · intro none_failed loud
    refine (scheduled _).mpr ⟨succeeds_iff.mpr none_failed, loud, ?_⟩
    rw [closing, runAll_eq_map at_root, List.length_map]
    exact List.mem_cons_of_mem _ List.mem_cons_self

/-- A selection that is refused changes nothing. Else what the command does is the same in whichever order
the targets take their turns. -/
theorem run_in_any_order (settings : Settings) (env : Environment) (path : FilePath)
    (only : List String) {tree : FileTree} {config : Config} {store : Store} {log : Log}
    {file : ChainFile} {base : Location}
    (prepared : settings.prepare env tree = (.ok (config, store), log))
    (loaded : ChainFile.load tree path = .ok file)
    (located : tree.locate store.root = .ok base) (directory : tree.node? base = some .directory) :
    (Refused file only → ∃ failure,
      run settings env path only tree = .failed failure log.events tree) ∧
    (¬ Refused file only →
      InAnyOrder settings store file (selectedChains file only) tree
        (run settings env path only tree)) :=
  ⟨run_of_refused prepared loaded,
    inAnyOrder_run prepared loaded (FileTree.directoryAt_of_locate located directory)⟩

/-- The text of a chain file with two targets on one machine, and one on a machine with a separator. -/
def twinText : String :=
  "id=7\nsteps=[[\"reboot\",4],[\"script\",5,\"s\",\"x\"]]\n" ++
    "targets=[[\"a\",\"m\"],[\"b\",\"m\"],[\"c\",\"/\"]]"

/-- The chain file that it is the text of. -/
def twins : ChainFile where
  id := 7
  targets := [⟨"a", "m"⟩, ⟨"b", "m"⟩, ⟨"c", "/"⟩]
  steps := [.reboot 4 none 0, .script 5 (some "s") "x" none none]

/-- A tree with a directory for the states, and the chain file. -/
def twinTree : FileTree :=
  (FileTree.empty.putAt [FileName.ofString "salt"] .directory).putAt [FileName.ofString "twins"]
    (.file twinText.toUTF8)

def twinSettings : Settings where
  statesRoot := some ⟨"salt"⟩

/-- A test for this chain file. Chain files as such cannot be compared, for the arguments of a module run
may be doubles. -/
def isTwins (file : ChainFile) : Bool :=
  match file.steps with
  | [.reboot action id delay, .script action' id' contents user timeout] =>
    file.id = twins.id ∧ file.targets = twins.targets ∧ (action, id, delay) = (4, none, 0) ∧
      (action', id', contents, user, timeout) = (5, some "s", "x", none, none)
  | _ => false

theorem eq_twins_of_isTwins {file : ChainFile} (same : isTwins file = true) : file = twins := by
  obtain ⟨id, targets, steps⟩ := file
  unfold isTwins at same
  split at same
  · rename_i two
    dsimp only at two
    simp only [decide_eq_true_eq, Prod.mk.injEq] at same
    obtain ⟨rfl, rfl, ⟨rfl, rfl, rfl⟩, rfl, rfl, rfl, rfl, rfl⟩ := same
    rw [two]
    rfl
  · cases same

theorem load_twins : ChainFile.load twinTree ⟨"twins"⟩ = .ok twins := by
  have read : twinTree.read ⟨"twins"⟩ = .ok twinText.toUTF8 :=
    Store.eq_ok_of_toOption (by decide +kernel)
  have text : twinTree.readText? ⟨"twins"⟩ = some twinText := by
    rw [FileTree.readText?, read]
    exact FileName.text?_eq_some.mpr rfl
  -- Sorting does not evaluate, but the fields are in order already.
  have known : ((Toml.readLines (2 * twinText.toList.length + 2) {} twinText.toList).map
      fun reading => Toml.fieldsOf reading.root).any (fun fields =>
        (fields.map Prod.fst).Pairwise (· ≤ ·) && (ChainFile.ofValue? (.object fields)).any isTwins) =
      true := by decide +kernel
  obtain ⟨fields, lines, known⟩ := (Option.any_eq_true _ _).mp known
  rw [Bool.and_eq_true, decide_eq_true_eq, Option.any_eq_true] at known
  obtain ⟨sorted, file, described, same⟩ := known
  have parsed : Toml.parse? twinText = some (.object fields) := by
    rw [Toml.parse?_of_no_mark (by decide +kernel), lines, Option.map_some,
      Toml.sortFields_of_sorted sorted]
  simp only [ChainFile.load, text, parsed, Option.bind_some, described, eq_twins_of_isTwins same]

def twinEnvironment : Environment := [("HOME", "/home")]

theorem prepare_twins : (twinSettings.prepare twinEnvironment twinTree).1 = .ok ({}, ⟨⟨"salt"⟩⟩) := by
  rfl

/-- How the targets of the chain file end: the first two with the same paths, the third one is refused. -/
def twinResults : List (Target × Except StoreError (List FilePath)) :=
  let paths := [⟨"salt/actionchains/actionchain_7_m_1.sls"⟩, ⟨"salt/actionchains/actionchain_7_m_2.sls"⟩]
  [(⟨"a", "m"⟩, .ok paths), (⟨"b", "m"⟩, .ok paths),
    (⟨"c", "/"⟩, .error (.invalidFileName "actionchain_7_/_1.sls"))]

theorem run_in_any_order_twins :
    (twinSettings.prepare twinEnvironment twinTree).1 = .ok ({}, ⟨⟨"salt"⟩⟩) ∧
    ChainFile.load twinTree ⟨"twins"⟩ = .ok twins ∧
    twinTree.locate ⟨"salt"⟩ = .ok [FileName.ofString "salt"] ∧
    twinTree.node? [FileName.ofString "salt"] = some .directory ∧
    (Refused twins ["d"] ∧ ∃ failure, run twinSettings twinEnvironment ⟨"twins"⟩ ["d"] twinTree =
      .failed failure (twinSettings.prepare twinEnvironment twinTree).2.events twinTree) ∧
    ¬ Refused twins [] ∧
    InAnyOrder twinSettings ⟨⟨"salt"⟩⟩ twins (selectedChains twins []) twinTree
      (run twinSettings twinEnvironment ⟨"twins"⟩ [] twinTree) ∧
    (∀ final, Reaches ⟨⟨"salt"⟩⟩ (start twinTree (selectedChains twins [])) final → final.Finished →
      final.results.map (fun (chain, result) => (chain.target, result)) = twinResults) ∧
    (run twinSettings twinEnvironment ⟨"twins"⟩ [] twinTree).result =
      .error (.targetsFailed 7 1 3) := by
  have prepared : twinSettings.prepare twinEnvironment twinTree =
      (.ok ({}, ⟨⟨"salt"⟩⟩), (twinSettings.prepare twinEnvironment twinTree).2) :=
    Prod.ext prepare_twins rfl
  have located : twinTree.locate ⟨"salt"⟩ = .ok [FileName.ofString "salt"] :=
    Store.eq_ok_of_toOption (by decide +kernel)
  have directory : twinTree.node? [FileName.ofString "salt"] = some .directory := by decide +kernel
  have refused : Refused twins ["d"] := by simp [Refused, twins]
  have accepted : ¬ Refused twins [] := by simp [Refused, twins]
  have not_served := (run_in_any_order twinSettings twinEnvironment ⟨"twins"⟩ ["d"] prepared load_twins
    located directory).1 refused
  have any_order := (run_in_any_order twinSettings twinEnvironment ⟨"twins"⟩ [] prepared load_twins
    located directory).2 accepted
  have alone : (aloneResults ⟨⟨"salt"⟩⟩ (selectedChains twins []) twinTree).map
      (fun (chain, result) => (chain.target, result)) = twinResults := by decide +kernel
  have one_failed : failures (aloneResults ⟨⟨"salt"⟩⟩ (selectedChains twins []) twinTree) = 1 := by
    have count := congrArg (List.countP fun (_, result) => !result.isOk) alone
    rw [List.countP_map] at count
    exact count
  refine ⟨prepare_twins, load_twins, located, directory, ⟨refused, not_served⟩, accepted, any_order,
    fun final reached finished => ?_, ?_⟩
  · rw [any_order.results_eq final reached finished]
    exact alone
  · rw [any_order.counts (by rw [one_failed]; decide), one_failed]
    rfl

end Schedule

end ChunkedChain
