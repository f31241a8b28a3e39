import ChunkedChain.Json.Reader
import ChunkedChain.Session.Outcome
import ChunkedChain.StateId

/-!
# Decoding reported states

State keys are read one by one, or together with their results from a report in a file. A report is that
of a single node, or else a mapping from nodes to theirs.
-/

namespace ChunkedChain.Decoding

def fields (coordinates : Coordinates) : List Event :=
  [.field "Chain" (decimal coordinates.chain.toNat),
    .field "Action" (decimal coordinates.action.toNat),
    .field "Chunk" (decimal coordinates.chunk.toNat)]

def keyEvents (settings : Settings) (key : String) : List Event :=
  (StateId.log key).events ++
    match StateId.decode? key with
    | some coordinates => .shown [⟨key, some .bold⟩] :: fields coordinates
    | none => settings.unlessQuiet [.warning ("Not an action chain state: " ++ key)]

def runKeys (settings : Settings) (keys : List String) (tree : FileTree) : Outcome :=
  .done (keys.flatMap (keyEvents settings)) tree

def inner (report : Value) : List (String × Value) :=
  (report.fields?.getD []).filter fun (_, states) => states.fields?.isSome

/-- The states of action chains in a report, by node where it is one of several nodes. -/
def byNode (report : Value) : List (Option String × List ReportEntry) :=
  match Report.decode report with
  | [] =>
    ((inner report).map fun (node, states) => (some node, Report.decode states)).filter
      fun (_, entries) => !entries.isEmpty
  | entries => [(none, entries)]

def byNodeLog (report : Value) : Log :=
  Report.log report ++
    if (Report.decode report).isEmpty then (inner report).flatMap fun (_, states) => Report.log states
    else []

def status : Option Bool → Span
  | some true => ⟨"ok", some .green⟩
  | some false => ⟨"failed", some .red⟩
  | none => ⟨"unknown", some .yellow⟩

def entryEvent (entry : ReportEntry) : Event :=
  .shown ["  ", status entry.result,
    " chain " ++ decimal entry.coordinates.chain.toNat ++ " action "
      ++ decimal entry.coordinates.action.toNat ++ " chunk " ++ decimal entry.coordinates.chunk.toNat]

def nodeEvents : Option String × List ReportEntry → List Event
  | (node, entries) =>
    (match node with
      | some name => Event.sectionTitle name
      | none => [])
    ++ entries.map entryEvent

def reportEvents (settings : Settings) (report : Value) : List Event :=
  (byNodeLog report).events ++
    match byNode report with
    | [] => settings.unlessQuiet [.info "No action chain states in report"]
    | nodes => nodes.flatMap nodeEvents

def runReport (settings : Settings) (path : FilePath) (tree : FileTree) : Outcome :=
  match tree.readText? path with
  | none => .failed (.unreadable path) [] tree
  | some text =>
    match Json.parse? Json.maxDepth text with
    | none => .failed (.badJson path) [] tree
    | some report => .done (reportEvents settings report) tree

end ChunkedChain.Decoding
