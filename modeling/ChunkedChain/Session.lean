import ChunkedChain.Cleanup
import ChunkedChain.Session.Decoding
import ChunkedChain.Session.Preview

/-!
# Sessions

Carries out what a command line asks for. The two shortest commands stand here too. One removes the files of
a finished chunk: the node is named by its machine id, or by its minion id if the configuration knows it, and
paths that could not be dealt with are shown and make the session fail. The other shows where the
configuration is looked for and where files go.
-/

namespace ChunkedChain

namespace Removal

def reportEvents (settings : Settings) (report : CleanupReport) : List Event :=
  (report.errors.map fun (path, reason) => .problem (path.text ++ ": " ++ reason)) ++
    settings.unlessQuiet (if report.removed.isEmpty then [.info "Nothing to remove"]
      else .success ("Removed " ++ countOf report.removed.length "file")
        :: settings.details report.removed)

/-- How the session ends: with a failure if paths were left. -/
def result (chain : UInt64) (chunk : UInt32) (report : CleanupReport) : Except Failure Unit :=
  if report.isClean then .ok () else .error (.filesLeft chain chunk report.errors.length)

def carryOut (settings : Settings) (log : Log) (cleanup : Cleanup) (store : Store) (tree : FileTree) :
    Outcome :=
  let (last, outcomes) := cleanup.run store tree
  let report := CleanupReport.of outcomes
  { events := (log ++ cleanup.log outcomes).events ++ reportEvents settings report
    tree := last
    result := result cleanup.chain cleanup.chunk report }

def run (settings : Settings) (env : Environment) (chain : UInt64) (node : NodeName) (chunk : UInt32)
    (failed : Bool) (tree : FileTree) : Outcome :=
  match settings.prepare env tree with
  | (.error failure, log) => .failed failure log.events tree
  | (.ok (config, store), log) =>
    match node with
    | .machine id => carryOut settings log ⟨chain, id, chunk, failed⟩ store tree
    | .minion id =>
      match Cleanup.ofMinion? config.machines id chain chunk failed with
      | some cleanup => carryOut settings log cleanup store tree
      | none =>
        .failed (.unknownMinion id) (log ++ [Cleanup.unknownMinion id chain]).events tree

end Removal

namespace Overview

def presence (tree : FileTree) (path : FilePath) : String :=
  if tree.exists? path then "" else " (missing)"

def configFile (settings : Settings) (env : Environment) : Option FilePath × Log :=
  match settings.config with
  | some path => (some path, [])
  | none => env.configFile

def fileEvents (file : FilePath) (config : Config) (store : Store) (tree : FileTree) : List Event :=
  [.field "Config file" (file.text ++ presence tree file),
    .field "States root" store.root.text,
    .field "Chunks" store.chainsDirectory.text,
    .field "Scripts" store.scriptsDirectory.text,
    .field "Known targets" (decimal config.machines.length)]

def run (settings : Settings) (env : Environment) (tree : FileTree) : Outcome :=
  match configFile settings env with
  | (none, log) => .failed .noHome log.events tree
  | (some file, fileLog) =>
    match settings.prepare env tree with
    | (.error failure, log) => .failed failure (fileLog ++ log).events tree
    | (.ok (config, store), log) =>
      let start := (fileLog ++ log).events ++ Event.heading "Paths"
      match env.configDirectory with
      | (none, dirLog) => .failed .noHome (start ++ dirLog.events) tree
      | (some dir, dirLog) =>
        .done (start ++ dirLog.events ++ .field "Config dir" dir.text
          :: fileEvents file config store tree) tree

end Overview

/-- Carries out a command. Completions are left to the shells' own tools, so there is nothing to do. -/
def Command.run (command : Command) (settings : Settings) (env : Environment) (tree : FileTree) :
    Outcome :=
  match command with
  | .compile file only => Schedule.run settings env file only tree
  | .plan file only summary => Preview.run settings env file only summary tree
  | .decodeKeys keys => Decoding.runKeys settings keys tree
  | .decodeReport file => Decoding.runReport settings file tree
  | .cleanup chain node chunk failed => Removal.run settings env chain node chunk failed tree
  | .paths => Overview.run settings env tree
  | .completions _ => .done [] tree

namespace Invocation

def run (invocation : Invocation) (env : Environment) (tree : FileTree) : Outcome :=
  invocation.command.run invocation.settings env tree

def screen (invocation : Invocation) (coloured : Bool) : Screen :=
  ⟨coloured, invocation.settings.finest⟩

end Invocation

namespace Outcome

def exitStatus (outcome : Outcome) : UInt8 := if outcome.result.isOk then 0 else 1

def failureLine (outcome : Outcome) : String :=
  match outcome.result with
  | .ok () => ""
  | .error failure => "Error: " ++ failure.message ++ "\n"

end Outcome

end ChunkedChain
