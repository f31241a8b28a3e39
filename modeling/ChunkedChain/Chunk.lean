import ChunkedChain.ScriptFile
import ChunkedChain.Step.Link

/-!
# Chunks

A node cannot go on with a chain across a reboot, so a chain is applied in chunks. `segments` cuts the
steps after each one that must end its chunk; `compile` numbers the segments from 1, makes every step run
after the one before it, gives ids and scripts their chunk's names, and ends every chunk but the last
with a state that asks for the next one.
-/

namespace ChunkedChain

/-- A managed node: the name it answers to, and the stable id that names its files. -/
structure Target where
  minion : String
  machine : String
  deriving DecidableEq, Repr

/-- Steps scheduled on one target. -/
structure Chain where
  id : UInt64
  target : Target
  steps : List Step

/-- A part of a chain that is applied at once. -/
structure Chunk where
  chain : UInt64
  machine : String
  number : UInt32
  steps : List Step
  /-- The state that asks for the next chunk, unless there is none. -/
  continuation : Option State

namespace Chunk

def fileNameOf (chain : UInt64) (machine : String) (number : UInt32) : String :=
  "actionchain_" ++ decimal chain.toNat ++ "_" ++ machine ++ "_" ++ decimal number.toNat ++ ".sls"

def fileName (chunk : Chunk) : String := fileNameOf chunk.chain chunk.machine chunk.number

/-- The steps in the order of the document, the continuation last. -/
def documentSteps (chunk : Chunk) : List Step :=
  chunk.steps ++ (chunk.continuation.map Step.state).toList

def isLast (chunk : Chunk) : Bool := chunk.continuation.isNone

end Chunk

namespace Step

/-- Whether nothing may follow this step in its chunk. -/
def endsChunk (step : Step) : Bool := step.reboots

/-- Whether a step installs packages in bulk. Such an install may end the session too, but only on nodes
with an old agent, which is not known here, so it does not end a chunk. -/
def installsInBulk (step : Step) : Bool :=
  match step with
  | .state ⟨_, .run _ args _, _⟩ =>
    (Entries.get? "mods" args).bind Value.text? = some "packages.pkginstall"
  | _ => false

def endsChunkLog (step : Step) : Log :=
  if step.reboots then [] else
    if step.installsInBulk then
      [⟨.trace, .compiler, "Bulk package install in '" ++ step.id?.getD "" ++ "' does not split"⟩]
    else []

end Step

/-- Cuts steps after every one that ends its chunk. The last segment is the one that stays open. -/
def segments : List Step → List (List Step)
  | [] => [[]]
  | step :: rest =>
    if step.endsChunk then [step] :: segments rest else
      match segments rest with
      | [] => [[step]]
      | first :: others => (step :: first) :: others

/-- Where a step stands: the chain, the machine and the chunk. -/
structure Place where
  chain : UInt64
  machine : String
  chunk : UInt32
  deriving DecidableEq, Repr

namespace Place

def placeScript (place : Place) (script : Script) : Script :=
  { script with
    source := some <| ScriptFile.source <|
      ScriptFile.nameOf place.chain place.machine place.chunk script.action }

/-- Gives a task what it needs in its place: a script gets the address of its file. -/
def placeTask (place : Place) : Task → Task
  | .script script => .script (place.placeScript script)
  | task => task

/-- Gives a state its place: the chunk's suffix on its id, and its script's address. -/
def placeState (place : Place) (state : State) : State :=
  { state with id := state.id ++ StateId.chunkSuffix place.chunk, task := place.placeTask state.task }

/-- Makes the first step run after `previous` and every other one after the real step before it, and
gives all of them their place. -/
def placeSteps (place : Place) (previous : Option Step) : List Step → List Step
  | [] => []
  | step :: rest =>
    let placed := (step.after previous).mapState place.placeState
    placed :: place.placeSteps (if placed.state?.isSome then some placed else previous) rest

def scriptFile? (place : Place) : Step → Option ScriptFile
  | .state ⟨_, .script script, _⟩ =>
    some ⟨ScriptFile.nameOf place.chain place.machine place.chunk script.action, script.contents⟩
  | _ => none

end Place

namespace Chunk

def place (chunk : Chunk) : Place := ⟨chunk.chain, chunk.machine, chunk.number⟩

/-- The files of the chunk's scripts, in step order. -/
def scripts (chunk : Chunk) : List ScriptFile := chunk.steps.filterMap chunk.place.scriptFile?

def nextId : String := "schedule_next_chunk"

def nextFunction : String := "mgractionchains.next"

/-- The state that asks for chunk `next` of a chain. -/
def asksFor (chain : UInt64) (next : UInt32) : State where
  id := nextId
  task := .run nextFunction [("actionchain_id", .int chain.toNat), ("chunk", .int next.toNat)] none

/-- The continuation of a chunk with the placed steps `steps`: it runs after the last real one. -/
def continuationAfter (place : Place) (steps : List Step) : Option State :=
  ((Step.state (asksFor place.chain (place.chunk + 1))).after (Step.lastReal? steps)).state?

/-- The chunk made of one segment; `closed` tells whether another one follows. -/
def ofSegment (place : Place) (closed : Bool) (segment : List Step) : Chunk :=
  let steps := place.placeSteps none segment
  { chain := place.chain
    machine := place.machine
    number := place.chunk
    steps
    continuation := if closed then continuationAfter place steps else none }

/-- The chunks of consecutive segments, the first of which stands at `place`. -/
def ofSegments (place : Place) : List (List Step) → List Chunk
  | [] => []
  | [last] => [ofSegment place false last]
  | segment :: rest =>
    ofSegment place true segment :: ofSegments { place with chunk := place.chunk + 1 } rest

def log (chunk : Chunk) : Log :=
  let name := decimal chunk.number.toNat ++ " of action chain " ++ decimal chunk.chain.toNat ++ " for "
    ++ chunk.machine
  let count := decimal chunk.steps.length ++ " steps"
  chunk.steps.flatMap Step.endsChunkLog ++
    [⟨.debug, .compiler,
      if chunk.isLast then "Closing last chunk " ++ name ++ " with " ++ count
      else "Closing chunk " ++ name ++ " after " ++ count⟩]

end Chunk

/-- Cuts a chain into its chunks, numbered from 1. There is always at least one, and the last one has no
continuation. -/
def compile (chain : Chain) : List Chunk :=
  Chunk.ofSegments ⟨chain.id, chain.target.machine, 1⟩ (segments chain.steps)

def compileLog (chain : Chain) : Log := (compile chain).flatMap Chunk.log

end ChunkedChain
