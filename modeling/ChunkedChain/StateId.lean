import ChunkedChain.Decimal.Numeral
import ChunkedChain.Log
import ChunkedChain.Value

/-!
# State ids

The id of a compiled state tells its chain, its action and its chunk:
`mgr_actionchain_12_action_345_chunk_2`. The node reports results under keys that hold this id between
other parts, as in `module_|-mgr_actionchain_12_action_345_chunk_2_|-pkg.install_|-run`. An *occurrence*
is a separator bar followed by such an id. A key is read at the last occurrence of the first line that
has one, whatever else it holds.

A node answers a state run with a report: a mapping from state keys to results. `Report.decode` keeps the
states of action chains, in the order of the report.
-/

namespace ChunkedChain

/-- Which action of which chain a state was made for, and in which chunk it runs. -/
structure Coordinates where
  chain : UInt64
  action : UInt64
  chunk : UInt32
  deriving DecidableEq, Repr

namespace StateId

def opening : String := "mgr_actionchain_"

def actionMark : String := "_action_"

def chunkMark : String := "_chunk_"

/-- The id of an action's state, before the chain is cut into chunks. -/
def ofAction (chain action : UInt64) : String :=
  opening ++ decimal chain.toNat ++ actionMark ++ decimal action.toNat

def chunkSuffix (chunk : UInt32) : String := chunkMark ++ decimal chunk.toNat

/-- The id of an action's state in its chunk. -/
def ofCoordinates (c : Coordinates) : String :=
  ofAction c.chain c.action ++ chunkSuffix c.chunk

/-- The three runs of digits of an occurrence. -/
structure Occurrence where
  chain : List Char
  action : List Char
  chunk : List Char
  deriving DecidableEq, Repr

namespace Occurrence

/-- The bar that separates the parts of a key, and the start of an id. -/
def bar : String := "|-" ++ opening

/-- The occurrence that a text starts with. Each run of digits is as long as it can be. -/
def at? (text : List Char) : Option Occurrence := do
  let rest ← bar.toList.isPrefixOf? text
  let (chain, rest) ← Numeral.leading? rest
  let rest ← actionMark.toList.isPrefixOf? rest
  let (action, rest) ← Numeral.leading? rest
  let rest ← chunkMark.toList.isPrefixOf? rest
  let (chunk, _) ← Numeral.leading? rest
  return { chain, action, chunk }

/-- The last occurrence in a line. -/
def last? : List Char → Option Occurrence
  | [] => none
  | c :: rest =>
    match last? rest with
    | some found => some found
    | none => at? (c :: rest)

/-- The last occurrence in the first line of `key` that has one. -/
def inKey? (key : String) : Option Occurrence := (key.toList.splitOn '\n').findSome? last?

end Occurrence

inductive Part where
  | chain | action | chunk
  deriving DecidableEq, Repr

/-- What a key turns out to be. -/
inductive Reading where
  /-- The key has no occurrence. -/
  | foreign
  /-- The numbers of these parts are too large. -/
  | outOfRange (parts : List Part)
  /-- The key is that of a chain's state. -/
  | decoded (coordinates : Coordinates)
  deriving DecidableEq, Repr

/-- The reading of an occurrence: its three numbers, if all of them fit. -/
def Occurrence.read (found : Occurrence) : Reading :=
  match Numeral.word64? found.chain, Numeral.word64? found.action, Numeral.word32? found.chunk with
  | some chain, some action, some chunk => .decoded { chain, action, chunk }
  | chain, action, chunk => .outOfRange <|
      (if chain.isNone then [Part.chain] else []) ++ (if action.isNone then [Part.action] else [])
        ++ (if chunk.isNone then [Part.chunk] else [])

def read (key : String) : Reading :=
  match Occurrence.inKey? key with
  | some found => found.read
  | none => .foreign

/-- The coordinates in a reported key, if it is that of a chain's state and its numbers fit. -/
def decode? (key : String) : Option Coordinates :=
  match read key with
  | .decoded coordinates => some coordinates
  | _ => none

def tooLarge : String := "number too large to fit in target type"

def log (key : String) : Log :=
  match read key with
  | .outOfRange parts =>
    [⟨.error, .stateIds, "Error parsing action chain state id: " ++ key ++ ": "
      ++ ", ".intercalate (parts.map fun _ => tooLarge)⟩]
  | _ => []

end StateId

/-- A reported state of an action chain. -/
structure ReportEntry where
  key : String
  coordinates : Coordinates
  /-- Whether the state succeeded, when the report says so. -/
  result : Option Bool

namespace Report

def result? (state : Value) : Option Bool := (state.field? "result").bind Value.bool?

def ofState? (state : String × Value) : Option ReportEntry :=
  (StateId.decode? state.1).map fun coordinates => ⟨state.1, coordinates, result? state.2⟩

/-- The states of action chains in a report; none if the report is not a mapping. -/
def decode (report : Value) : List ReportEntry := (report.fields?.getD []).filterMap ofState?

def log (report : Value) : Log :=
  match report.fields? with
  | some states => states.flatMap fun (key, _) => StateId.log key
  | none => [⟨.warn, .stateIds, "State run return is not a mapping, nothing to decode"⟩]

end Report

end ChunkedChain
