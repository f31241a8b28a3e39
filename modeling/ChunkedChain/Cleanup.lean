import ChunkedChain.Store

/-!
# Cleanup

When a chunk is finished its document is removed. When the chain failed, the scripts of that chunk and of
all later ones on the same machine go too, so that no later run applies them. Cleanup never fails as a
whole: a path that cannot be removed is reported, and the next one is tried. A second cleanup finds the
same obstacles and nothing else to do.
-/

namespace ChunkedChain

/-- A finished chunk whose files are to go. -/
structure Cleanup where
  chain : UInt64
  machine : String
  chunk : UInt32
  /-- The chain failed, so the scripts from this chunk on go too. -/
  failed : Bool
  deriving DecidableEq, Repr

inductive CleanupOutcome where
  /-- The document's name is no file name; nothing else is done. -/
  | refused (name : String)
  /-- The scripts could not be listed. -/
  | unlisted (dir : FilePath) (cause : FileError)
  | removed (path : FilePath)
  /-- The file was not there. -/
  | absent (path : FilePath)
  | kept (path : FilePath) (cause : FileError)
  deriving DecidableEq, Repr

/-- The files that were removed, and the paths that were not, each with the reason. -/
structure CleanupReport where
  removed : List FilePath
  errors : List (FilePath × String)
  deriving DecidableEq, Repr

namespace CleanupOutcome

def removed? : CleanupOutcome → Option FilePath
  | .removed path => some path
  | _ => none

def error? : CleanupOutcome → Option (FilePath × String)
  | .refused name => some (⟨name⟩, (StoreError.invalidFileName name).message)
  | .unlisted dir cause => some (dir, cause.message)
  | .kept path cause => some (path, cause.message)
  | _ => none

def log (cleanup : Cleanup) : CleanupOutcome → LogEntry
  | .refused name =>
    ⟨.error, .cleanup, "Not cleaning up action chain " ++ decimal cleanup.chain.toNat ++ " for machine '"
      ++ cleanup.machine ++ "': " ++ (StoreError.invalidFileName name).message⟩
  | .unlisted dir cause =>
    ⟨.error, .cleanup, "Could not list " ++ dir.text ++ ": " ++ cause.message⟩
  | .removed path => ⟨.info, .cleanup, "Removed " ++ path.text⟩
  | .absent path => ⟨.debug, .cleanup, "Already gone: " ++ path.text⟩
  | .kept path cause =>
    ⟨.error, .cleanup, "Could not remove " ++ path.text ++ ": " ++ cause.message⟩

end CleanupOutcome

namespace CleanupReport

/-- The report on some outcomes. -/
def of (outcomes : List CleanupOutcome) : CleanupReport :=
  ⟨outcomes.filterMap CleanupOutcome.removed?, outcomes.filterMap CleanupOutcome.error?⟩

def isClean (report : CleanupReport) : Bool := report.errors.isEmpty

end CleanupReport

namespace Cleanup

def documentName (cleanup : Cleanup) : String :=
  Chunk.fileNameOf cleanup.chain cleanup.machine cleanup.chunk

/-- Whether a script is one of this chain on this machine, for this chunk or a later one. -/
def isStale (cleanup : Cleanup) (name : String) : Bool :=
  (ScriptFile.chunk? name cleanup.chain cleanup.machine).any (cleanup.chunk ≤ ·)

def staleScripts (cleanup : Cleanup) (store : Store) (names : List FileName) : List FilePath :=
  (names.filterMap FileName.text?).filter cleanup.isStale |>.map (store.scriptsDirectory / ·)

/-- The paths to remove, and the obstacle if the scripts cannot be listed. Without a directory there are
no scripts. -/
def targets (cleanup : Cleanup) (store : Store) (tree : FileTree) :
    List CleanupOutcome × List FilePath :=
  let document := store.chainsDirectory / cleanup.documentName
  if cleanup.failed then
    match tree.list store.scriptsDirectory with
    | .ok names => ([], document :: cleanup.staleScripts store names)
    | .error .notFound => ([], [document])
    | .error e => ([.unlisted store.scriptsDirectory e], [document])
  else ([], [document])

def removeOne (tree : FileTree) (path : FilePath) : FileTree × CleanupOutcome :=
  match tree.remove path with
  | .ok next => (next, .removed path)
  | .error .notFound => (tree, .absent path)
  | .error e => (tree, .kept path e)

def removeAll : List FilePath → FileTree → FileTree × List CleanupOutcome
  | [], tree => (tree, [])
  | path :: rest, tree =>
    let (next, outcome) := removeOne tree path
    let (last, outcomes) := removeAll rest next
    (last, outcome :: outcomes)

def run (cleanup : Cleanup) (store : Store) (tree : FileTree) : FileTree × List CleanupOutcome :=
  if !isFileName cleanup.documentName then (tree, [.refused cleanup.documentName])
  else
    let (obstacles, paths) := cleanup.targets store tree
    let (last, outcomes) := removeAll paths tree
    (last, obstacles ++ outcomes)

def log (cleanup : Cleanup) (outcomes : List CleanupOutcome) : Log :=
  outcomes.map (CleanupOutcome.log cleanup)

/-- Removes the files of a finished chunk: the new tree and the report. -/
def report (cleanup : Cleanup) (store : Store) (tree : FileTree) : FileTree × CleanupReport :=
  let (last, outcomes) := cleanup.run store tree
  (last, .of outcomes)

/-- The cleanup of a chunk that a minion finished, if the minion's machine is known. -/
def ofMinion? (machines : Entries String) (minion : String) (chain : UInt64) (chunk : UInt32)
    (failed : Bool) : Option Cleanup :=
  (Entries.get? minion machines).map fun machine => ⟨chain, machine, chunk, failed⟩

def unknownMinion (minion : String) (chain : UInt64) : LogEntry :=
  ⟨.warn, .cleanup, "Unknown minion '" ++ minion ++ "', not cleaning up action chain "
    ++ decimal chain.toNat⟩

end Cleanup

end ChunkedChain
