/-!
# Log entries

What the program reports about its work beside its answers: a level, the part of the program that
speaks, and a message.
-/

namespace ChunkedChain

inductive Level where
  | error | warn | info | debug | trace
  deriving DecidableEq, Repr

namespace Level

def label : Level → String
  | .error => "ERROR"
  | .warn => "WARN"
  | .info => "INFO"
  | .debug => "DEBUG"
  | .trace => "TRACE"

/-- Higher for less grave levels. -/
def detail : Level → Nat
  | .error => 1
  | .warn => 2
  | .info => 3
  | .debug => 4
  | .trace => 5

end Level

/-- The part of the program that speaks. -/
inductive Origin where
  | documents | requisites | compiler | stateIds | store | cleanup | generator | paths | config
  deriving DecidableEq, Repr

def Origin.label : Origin → String
  | .documents => "sls::generator"
  | .requisites => "sls::requisite"
  | .compiler => "chainkit::compiler"
  | .stateIds => "chainkit::state_id"
  | .store => "chainkit::store"
  | .cleanup => "chainkit::cleanup"
  | .generator => "chainkit"
  | .paths => "actionchain::paths"
  | .config => "actionchain::config"

structure LogEntry where
  level : Level
  origin : Origin
  message : String
  deriving DecidableEq, Repr

abbrev Log := List LogEntry

/-- The text that shows a log entry: the level padded to five characters, the speaker, and the message,
whose further lines are indented by four columns. -/
def LogEntry.line (entry : LogEntry) : String :=
  let level := entry.level.label
  "[" ++ level ++ "".pushn ' ' (5 - level.length) ++ " " ++ entry.origin.label ++ "] "
    ++ "\n    ".intercalate (entry.message.splitOn "\n")

end ChunkedChain
