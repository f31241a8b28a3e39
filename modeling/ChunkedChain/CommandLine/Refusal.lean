import ChunkedChain.CommandLine.Item

/-!
# Refusals

Why a command line does not lead to a command.
-/

namespace ChunkedChain

inductive Refusal where
  /-- There is nothing on the command line. -/
  | nothingGiven
  /-- There are options but no subcommand. -/
  | missingSubcommand
  | invalidSubcommand (word : String)
  /-- An option that does not exist here, or a word too many. -/
  | unknownArgument (argument : String)
  /-- The value is missing, empty or none of those allowed. -/
  | invalidValue (item : Item)
  /-- The value is no number in range. -/
  | notInRange (item : Item)
  /-- Something that is needed was not given. -/
  | missing (item : Item)
  /-- The item was given twice, or with one that excludes it. -/
  | conflict (item : Item)
  /-- A value was attached to an option that takes none. -/
  | needlessValue (option : String)
  deriving DecidableEq, Repr

/-- Why reading a command line stops before there is a command. -/
inductive Stop where
  | help
  | version (scope : Scope)
  | refused (why : Refusal)
  deriving DecidableEq, Repr

namespace Stop

/-- The exit status: asking for help or for the version is no mistake. -/
def exitStatus : Stop → UInt8
  | .refused _ => 2
  | _ => 0

def programName : String := "actionchain"

def programVersion : String := "0.1.0"

def versionLine : Scope → String
  | .root => programName ++ " " ++ programVersion
  | .sub command => programName ++ "-" ++ command.name ++ " " ++ programVersion

end Stop

end ChunkedChain
