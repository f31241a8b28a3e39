import ChunkedChain.CommandLine.Refusal

/-!
# Usage

What is told to a user whose command line does not lead to a command.
-/

namespace ChunkedChain

/-- How an item is named to the user. -/
def Item.label (item : Item) : String :=
  match item.long? with
  | some name => "--" ++ name
  | none =>
    match item with
    | .chainFile => "<CHAIN_FILE>"
    | .keys => "<KEYS>"
    | _ => "<SHELL>"

def Refusal.message : Refusal → String
  | .nothingGiven => "nothing was asked for"
  | .missingSubcommand => "a subcommand is needed"
  | .invalidSubcommand word => "unrecognized subcommand '" ++ word ++ "'"
  | .unknownArgument argument => "unexpected argument '" ++ argument ++ "'"
  | .invalidValue item => "no valid value for '" ++ item.label ++ "'"
  | .notInRange item => "no number in range for '" ++ item.label ++ "'"
  | .missing item => "'" ++ item.label ++ "' is needed"
  | .conflict item => "'" ++ item.label ++ "' cannot be given again, or not with what else was given"
  | .needlessValue option => "'--" ++ option ++ "' takes no value"

def Subcommand.purpose : Subcommand → String
  | .compile => "write the chunks of a chain file for every target"
  | .plan => "show the chunks of a chain file without writing them"
  | .decode => "read action chain state keys"
  | .cleanup => "remove the files of a finished chunk"
  | .paths => "show the paths in use"
  | .completions => "make completions for a shell"

def Stop.usageLine : String := "Usage: " ++ programName ++ " [OPTIONS] <COMMAND>"

def Stop.helpText : String :=
  String.join <| [usageLine ++ "\n", "\n"] ++ Subcommand.all.map fun command =>
    "  " ++ command.name ++ ": " ++ command.purpose ++ "\n"

def Stop.answer : Stop → String
  | .help => helpText
  | .version scope => versionLine scope ++ "\n"
  | .refused _ => ""

/-- What a stop writes beside the answer. -/
def Stop.besides : Stop → String
  | .refused why => "error: " ++ why.message ++ "\n\n" ++ usageLine ++ "\n"
  | _ => ""

end ChunkedChain
