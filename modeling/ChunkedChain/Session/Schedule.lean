import ChunkedChain.ChainFile
import ChunkedChain.Session.Outcome

/-!
# Scheduling a chain

The files of a chain are written for each of its targets. A target that fails does not keep the others
from being served; the session fails if any target did.
-/

namespace ChunkedChain

structure TargetRun where
  chain : Chain
  run : WriteRun

namespace TargetRun

def failed (target : TargetRun) : Bool := target.run.failure.isSome

def events (settings : Settings) (target : TargetRun) : List Event :=
  let name := target.chain.target
  match target.run.result with
  | .ok paths =>
    settings.unlessQuiet
        [.success (name.minion ++ " (" ++ name.machine ++ "): " ++ countOf paths.length "chunk")]
      ++ settings.details paths
  | .error e => [.problem (name.minion ++ ": " ++ e.message), .detail e.category.advice]

end TargetRun

namespace Schedule

def runAll (store : Store) : List Chain → FileTree → FileTree × List TargetRun
  | [], tree => (tree, [])
  | chain :: rest, tree =>
    let (next, run) := store.runChain chain tree
    let (last, runs) := runAll store rest next
    (last, ⟨chain, run⟩ :: runs)

def title (store : Store) (file : ChainFile) (chains : List Chain) : List Event :=
  Event.heading ("Compiling action chain " ++ decimal file.id.toNat) ++
    [.field "States root" store.root.text,
      .field "Steps" (decimal file.steps.length),
      .field "Targets" (decimal chains.length),
      .blank]

/-- How the session ends: with a failure that counts the targets that failed, if there are any. -/
def result (chain : UInt64) (runs : List TargetRun) : Except Failure Unit :=
  let failed := runs.countP TargetRun.failed
  if failed = 0 then .ok () else .error (.targetsFailed chain failed runs.length)

def closing (chain : UInt64) (runs : List TargetRun) : List Event :=
  [.blank, .success ("Action chain " ++ decimal chain.toNat ++ " scheduled on "
    ++ countOf runs.length "target")]

/-- The chain file, and one chain for each target chosen. -/
def load (tree : FileTree) (path : FilePath) (only : List String) :
    Except Failure (ChainFile × List Chain) := do
  let file ← ChainFile.load tree path
  return (file, ← file.chains only)

def run (settings : Settings) (env : Environment) (path : FilePath) (only : List String)
    (tree : FileTree) : Outcome :=
  match settings.prepare env tree with
  | (.error failure, log) => .failed failure log.events tree
  | (.ok (_, store), log) =>
    match load tree path only with
    | .error failure => .failed failure log.events tree
    | .ok (file, chains) =>
      let (last, runs) := runAll store chains tree
      let ending := result file.id runs
      { events := log.events ++ settings.unlessQuiet (title store file chains)
          ++ (runs.flatMap fun target => (Store.createLog target.chain target.run).events)
          ++ runs.flatMap (TargetRun.events settings)
          ++ if ending.isOk then settings.unlessQuiet (closing file.id runs) else []
        tree := last
        result := ending }

end Schedule

end ChunkedChain
