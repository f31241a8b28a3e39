/-!
# Items of the command line

The subcommands, what may be given to each of them, and under which names. The items that every command
shares may stand before the subcommand or after it.
-/

namespace ChunkedChain

inductive Subcommand where
  | compile | plan | decode | cleanup | paths | completions
  deriving DecidableEq, Repr

namespace Subcommand

def name : Subcommand → String
  | .compile => "compile"
  | .plan => "plan"
  | .decode => "decode"
  | .cleanup => "cleanup"
  | .paths => "paths"
  | .completions => "completions"

def all : List Subcommand := [.compile, .plan, .decode, .cleanup, .paths, .completions]

def ofName? (name : String) : Option Subcommand := all.find? (·.name == name)

end Subcommand

/-- Something that can be given on the command line. -/
inductive Item where
  | verbose | quiet | config | statesRoot
  | chainFile | targets | summary
  | keys | json
  | chain | minion | machine | chunk | failed
  | shell
  deriving DecidableEq, Repr

namespace Item

/-- The name of an option after two dashes; what stands by its place alone has no such name. -/
def long? : Item → Option String
  | .verbose => some "verbose"
  | .quiet => some "quiet"
  | .config => some "config"
  | .statesRoot => some "states-root"
  | .targets => some "target"
  | .summary => some "summary"
  | .json => some "json"
  | .chain => some "chain"
  | .minion => some "minion"
  | .machine => some "machine"
  | .chunk => some "chunk"
  | .failed => some "failed"
  | .chainFile | .keys | .shell => none

def short? : Item → Option Char
  | .verbose => some 'v'
  | .quiet => some 'q'
  | .targets => some 't'
  | _ => none

def takesValue : Item → Bool
  | .verbose | .quiet | .summary | .failed => false
  | _ => true

def isListed : Item → Bool
  | .targets | .keys => true
  | _ => false

/-- The items that every command shares. -/
def shared : List Item := [.verbose, .quiet, .config, .statesRoot]

end Item

/-- Where an argument stands: before the subcommand, or after it. -/
inductive Scope where
  | root
  | sub (command : Subcommand)
  deriving DecidableEq, Repr

namespace Scope

def ownOptions : Scope → List Item
  | .root => []
  | .sub .compile => [.targets]
  | .sub .plan => [.targets, .summary]
  | .sub .decode => [.json]
  | .sub .cleanup => [.chain, .minion, .machine, .chunk, .failed]
  | .sub .paths => []
  | .sub .completions => []

def options (scope : Scope) : List Item := Item.shared ++ scope.ownOptions

/-- What a word that belongs to no option is taken for. -/
def word? : Scope → Option Item
  | .sub .compile | .sub .plan => some .chainFile
  | .sub .decode => some .keys
  | .sub .completions => some .shell
  | _ => none

end Scope

inductive Switch where
  | help
  | version
  | give (item : Item)
  deriving DecidableEq, Repr

namespace Switch

def takesValue : Switch → Bool
  | .give item => item.takesValue
  | _ => false

/-- The option of a name in a scope. Names are never shortened. -/
def long? (scope : Scope) (name : String) : Option Switch :=
  if name = "help" then some .help
  else if name = "version" then some .version
  else (scope.options.find? (·.long? == some name)).map .give

def short? (scope : Scope) (letter : Char) : Option Switch :=
  if letter = 'h' then some .help
  else if letter = 'V' then some .version
  else (scope.options.find? (·.short? == some letter)).map .give

end Switch

end ChunkedChain
