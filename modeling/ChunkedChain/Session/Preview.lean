import ChunkedChain.Session.Schedule

/-!
# Previews

A preview shows the chunks of a chain as they would be written: the path, the scripts and the document of
each chunk. Nothing is written.
-/

namespace ChunkedChain

/-- The lines of a text, each without the break that ends it. -/
def Text.lines (text : String) : List String :=
  let pieces := text.splitOn "\n"
  if pieces.getLast? = some "" then pieces.dropLast else pieces

structure ChunkView where
  number : UInt32
  file : FilePath
  steps : Nat
  /-- The number of the chunk that follows. -/
  next : Option UInt32
  scripts : List String
  /-- The steps of the document, in order. -/
  documentSteps : List Step

namespace ChunkView

def of (store : Store) (chunk : Chunk) : ChunkView where
  number := chunk.number
  file := store.documentPath chunk.chain chunk.machine chunk.number
  steps := chunk.steps.length
  next := if chunk.isLast then none else some (chunk.number + 1)
  scripts := chunk.scripts.map ScriptFile.name
  documentSteps := chunk.documentSteps

def document (view : ChunkView) : String := renderDocument view.documentSteps

def summary (view : ChunkView) : List Event :=
  Event.sectionTitle ("Chunk " ++ decimal view.number.toNat) ++
    [.field "File" view.file.text,
      .field "Steps" (decimal view.steps),
      .field "Next" (match view.next with
        | none => "none"
        | some number => "chunk " ++ decimal number.toNat)] ++
    view.scripts.map (Event.field "Script")

/-- The document, and what is logged when it is rendered. -/
def documentEvents (view : ChunkView) : List Event :=
  (Document.log view.documentSteps).events ++ .blank ::
    (Text.lines view.document).map fun line => .shown ["    ", ⟨line, some .dim⟩]

def events (summaryOnly : Bool) (view : ChunkView) : List Event :=
  view.summary ++ if summaryOnly then [] else view.documentEvents

end ChunkView

namespace Preview

def views (store : Store) (chain : Chain) : List ChunkView := (compile chain).map (ChunkView.of store)

def chainEvents (store : Store) (summaryOnly : Bool) (chain : Chain) : List Event :=
  let views := views store chain
  (compileLog chain).events ++
    Event.heading ("Action chain " ++ decimal chain.id.toNat ++ " on " ++ chain.target.minion ++ " ("
      ++ chain.target.machine ++ ")") ++
    .field "Chunks" (decimal views.length) :: views.flatMap (ChunkView.events summaryOnly)

def run (settings : Settings) (env : Environment) (path : FilePath) (only : List String)
    (summaryOnly : Bool) (tree : FileTree) : Outcome :=
  match settings.prepare env tree with
  | (.error failure, log) => .failed failure log.events tree
  | (.ok (_, store), log) =>
    match Schedule.load tree path only with
    | .error failure => .failed failure log.events tree
    | .ok (_, chains) =>
      .done (log.events ++ chains.flatMap (chainEvents store summaryOnly)) tree

end Preview

end ChunkedChain
