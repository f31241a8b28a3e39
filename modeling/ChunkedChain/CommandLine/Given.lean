import ChunkedChain.CommandLine.Invocation
import ChunkedChain.CommandLine.Refusal
import ChunkedChain.Decimal.Numeral

/-!
# What was given

The items of one level of the command line, with their values read. An item that is neither counted nor
listed may be given once. A path may not be empty, a number must fit, and what is given at the end must be
all that the subcommand needs.
-/

namespace ChunkedChain

/-- What was given at one level of the command line. -/
structure Given where
  settings : Settings := {}
  chainFile : Option FilePath := none
  targets : List String := []
  summary : Bool := false
  keys : List String := []
  json : Option FilePath := none
  chain : Option UInt64 := none
  minion : Option String := none
  machine : Option String := none
  chunk : Option UInt32 := none
  failed : Bool := false
  shell : Option Shell := none
  deriving DecidableEq, Repr

namespace Given

/-- The digits of a number, which a plus may precede. -/
def digits? (text : String) : Option (List Char) :=
  let digits := match text.toList with
    | '+' :: rest => rest
    | chars => chars
  if Numeral.isNumeral digits then some digits else none

def readPath (item : Item) (text : String) : Except Refusal FilePath :=
  if text.isEmpty then .error (.invalidValue item) else .ok ⟨text⟩

def readWord (item : Item) (text : String) : Except Refusal UInt64 :=
  match (digits? text).bind Numeral.word64? with
  | some word => .ok word
  | none => .error (.notInRange item)

/-- The chunk number that a text names: a 32-bit word other than 0. -/
def readChunk (item : Item) (text : String) : Except Refusal UInt32 :=
  match ((digits? text).bind Numeral.word32?).filter (· ≠ 0) with
  | some word => .ok word
  | none => .error (.notInRange item)

def readShell (item : Item) (text : String) : Except Refusal Shell :=
  match Shell.ofName? text with
  | some shell => .ok shell
  | none => .error (.invalidValue item)

def once {α : Type} (item : Item) (old : Option α) (read : Item → String → Except Refusal α)
    (text : String) : Except Refusal (Option α) :=
  if old.isSome then .error (.conflict item) else (read item text).map some

def flag (item : Item) (old : Bool) : Except Refusal Bool :=
  if old then .error (.conflict item) else .ok true

def put (given : Given) : Item → Option String → Except Refusal Given
  | .verbose, none => .ok { given with settings.verbosity := given.settings.verbosity + 1 }
  | .quiet, none => do return { given with settings.quiet := ← flag .quiet given.settings.quiet }
  | .summary, none => do return { given with summary := ← flag .summary given.summary }
  | .failed, none => do return { given with failed := ← flag .failed given.failed }
  | .config, some text => do
    return { given with settings.config := ← once .config given.settings.config readPath text }
  | .statesRoot, some text => do
    return { given with settings.statesRoot := ← once .statesRoot given.settings.statesRoot readPath text }
  | .chainFile, some text => do
    return { given with chainFile := ← once .chainFile given.chainFile readPath text }
  | .targets, some text => .ok { given with targets := given.targets ++ [text] }
  | .keys, some text => .ok { given with keys := given.keys ++ [text] }
  | .json, some text => do return { given with json := ← once .json given.json readPath text }
  | .chain, some text => do return { given with chain := ← once .chain given.chain readWord text }
  | .minion, some text => do
    return { given with minion := ← once .minion given.minion (fun _ => .ok) text }
  | .machine, some text => do
    return { given with machine := ← once .machine given.machine (fun _ => .ok) text }
  | .chunk, some text => do return { given with chunk := ← once .chunk given.chunk readChunk text }
  | .shell, some text => do return { given with shell := ← once .shell given.shell readShell text }
  | item, none => .error (.invalidValue item)
  | item, some _ => .error (.needlessValue (item.long?.getD ""))

def need {α : Type} (item : Item) : Option α → Except Refusal α
  | some value => .ok value
  | none => .error (.missing item)

/-- The command that was given. Items that exclude each other are found before those that are missing. -/
def command (given : Given) : Subcommand → Except Refusal Command
  | .compile => do return .compile (← need .chainFile given.chainFile) given.targets
  | .plan => do return .plan (← need .chainFile given.chainFile) given.targets given.summary
  | .decode =>
    match given.json, given.keys with
    | some file, [] => .ok (.decodeReport file)
    | some _, _ :: _ => .error (.conflict .keys)
    | none, [] => .error (.missing .keys)
    | none, keys => .ok (.decodeKeys keys)
  | .cleanup => do
    let node : Option NodeName ← match given.machine, given.minion with
      | some _, some _ => .error (.conflict .minion)
      | some machine, none => .ok (some (.machine machine))
      | none, some minion => .ok (some (.minion minion))
      | none, none => .ok none
    return .cleanup (← need .chain given.chain) (← need .minion node) (← need .chunk given.chunk)
      given.failed
  | .paths => .ok .paths
  | .completions => do return .completions (← need .shell given.shell)

end Given

end ChunkedChain
