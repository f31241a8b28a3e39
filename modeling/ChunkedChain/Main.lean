import ChunkedChain.CommandLine.Scan
import ChunkedChain.CommandLine.Usage
import ChunkedChain.Session

/-!
# The program

Takes what a command may need of the system's files into a file tree, carries the command out on the tree,
and makes the system's files like the tree it left.
-/

namespace ChunkedChain.Program

def pathOf (location : Location) : Option String :=
  (location.mapM FileName.text?).map fun names => "/" ++ "/".intercalate names

def way (tree : FileTree) (path : FilePath) : List Location :=
  let follow (location : Location) : Component → Location
    | .here => location
    | .up => location.dropLast
    | .name name => location ++ [name]
  (path.components.foldl (fun (at_, seen) component =>
    let next := follow at_ component
    (next, seen ++ [next])) (tree.start path, [])).2

def nodeAt? (location : Location) : IO (Option Node) := do
  let some path := pathOf location | return none
  try
    if ← (← IO.FS.realPath path).isDir then return some .directory
    if path = "/dev/full" then return some .fullDevice
    return some (.file (← IO.FS.readBinFile path))
  catch _ => return none

def takeIn (tree : FileTree) (location : Location) : IO FileTree := do
  match ← nodeAt? location with
  | some node => return tree.putAt location node
  | none => return tree

/-- Takes what is on the way to a path, and at its end, into a tree. -/
def takeInWay (tree : FileTree) (path : FilePath) : IO FileTree :=
  (way tree path).foldlM takeIn tree

def takeInEntries (tree : FileTree) (path : FilePath) : IO FileTree := do
  let tree ← takeInWay tree path
  let .ok location := tree.locate path | return tree
  let some name := pathOf location | return tree
  try
    let entries ← (← IO.FS.realPath name).readDir
    entries.foldlM (fun tree entry => takeIn tree (location ++ [FileName.ofString entry.fileName])) tree
  catch _ => return tree

def environment : IO Environment := do
  let block ← IO.FS.readBinFile "/proc/self/environ"
  let text := (String.fromUTF8? block).getD ""
  return (text.splitOn "\x00").filterMap fun entry =>
    match Text.splitFirst? ['='] entry.toList with
    | some (name, value) => some (String.ofList name, String.ofList value)
    | none => none

def startTree : IO FileTree := do
  let here : FilePath := ⟨(← IO.currentDir).toString⟩
  let tree ← takeInWay FileTree.empty here
  return { tree with workingDirectory := (way tree here).getLastD [] }

def fileOf : Command → List FilePath
  | .compile file _ | .plan file _ _ | .decodeReport file => [file]
  | _ => []

/-- The files that an invocation may need. -/
def filesFor (invocation : Invocation) (env : Environment) : IO FileTree := do
  let config := invocation.settings.config <|> env.configFile.1
  let tree ← (config.toList ++ fileOf invocation.command).foldlM takeInWay (← startTree)
  match (invocation.settings.prepare env tree).1 with
  | .error _ => return tree
  | .ok (_, store) =>
    takeInEntries (← takeInEntries tree store.chainsDirectory) store.scriptsDirectory

/-- Makes the system's files like a tree, of which only the changes against an earlier one are made. -/
def carryOut (earlier later : FileTree) : IO Unit := do
  for (location, _) in earlier.below [] do
    if (later.node? location).isNone then
      if let some path := pathOf location then IO.FS.removeFile path
  for (location, node) in later.below [] do
    if earlier.node? location ≠ some node then
      if let some path := pathOf location then
        match node with
        | .directory => IO.FS.createDir path
        | .file content => IO.FS.writeBinFile path content
        | .fullDevice => pure ()

def write (answer besides : String) : IO Unit := do
  IO.print answer
  IO.eprint besides

end ChunkedChain.Program

open ChunkedChain ChunkedChain.Program

def main (arguments : List String) : IO UInt32 := do
  match Invocation.parse arguments with
  | .error stop =>
    write stop.answer stop.besides
    return stop.exitStatus.toUInt32
  | .ok invocation =>
    let env ← environment
    let tree ← filesFor invocation env
    let outcome := invocation.run env tree
    carryOut tree outcome.tree
    let screen := invocation.screen (← (← IO.getStdout).isTty)
    write (screen.answer outcome.events) (screen.besides outcome.events ++ outcome.failureLine)
    return outcome.exitStatus.toUInt32
