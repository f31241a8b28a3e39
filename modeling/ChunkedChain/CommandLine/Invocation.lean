import ChunkedChain.FileTree.Path
import ChunkedChain.Log

/-!
# Invocations

What a command line asks for: a command with what it needs, and the settings that every command shares.
-/

namespace ChunkedChain

inductive Shell where
  | bash | elvish | fish | powershell | zsh
  deriving DecidableEq, Repr

namespace Shell

def name : Shell → String
  | .bash => "bash"
  | .elvish => "elvish"
  | .fish => "fish"
  | .powershell => "powershell"
  | .zsh => "zsh"

def all : List Shell := [.bash, .elvish, .fish, .powershell, .zsh]

def ofName? (name : String) : Option Shell := all.find? (·.name == name)

end Shell

/-- The settings that every command shares. -/
structure Settings where
  /-- How often more detail was asked for. -/
  verbosity : Nat := 0
  /-- Whether only what matters is shown. -/
  quiet : Bool := false
  config : Option FilePath := none
  statesRoot : Option FilePath := none
  deriving DecidableEq, Repr

namespace Settings

def finest (settings : Settings) : Level :=
  if settings.quiet then .error
  else match settings.verbosity with
    | 0 => .warn
    | 1 => .info
    | 2 => .debug
    | _ => .trace

def showsDetails (settings : Settings) : Bool := settings.verbosity > 0

/-- Settings given at two levels: where both say something the inner one holds. -/
def within (inner outer : Settings) : Settings where
  verbosity := if inner.verbosity = 0 then outer.verbosity else inner.verbosity
  quiet := inner.quiet || outer.quiet
  config := inner.config <|> outer.config
  statesRoot := inner.statesRoot <|> outer.statesRoot

end Settings

/-- How the node of a cleanup is named. -/
inductive NodeName where
  /-- By its minion id, which the configuration resolves. -/
  | minion (id : String)
  | machine (id : String)
  deriving DecidableEq, Repr

inductive Command where
  /-- Write the chunks of a chain file for its targets, or for those named. -/
  | compile (file : FilePath) (only : List String)
  /-- Show the chunks without writing them. -/
  | plan (file : FilePath) (only : List String) (summary : Bool)
  /-- Read state keys. -/
  | decodeKeys (keys : List String)
  /-- Read the states of a report. -/
  | decodeReport (file : FilePath)
  /-- Remove the files of a finished chunk. -/
  | cleanup (chain : UInt64) (node : NodeName) (chunk : UInt32) (failed : Bool)
  /-- Show the paths in use. -/
  | paths
  /-- Make completions for a shell. -/
  | completions (shell : Shell)
  deriving DecidableEq, Repr

structure Invocation where
  settings : Settings
  command : Command
  deriving DecidableEq, Repr

end ChunkedChain
