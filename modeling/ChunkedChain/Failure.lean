import ChunkedChain.Decimal.Numeral
import ChunkedChain.FileTree.Path

/-!
# Failures of a command

Why a command as a whole fails, and how that is told to the user.
-/

namespace ChunkedChain

/-- A number of things, in words: the noun gets a plural unless there is exactly one. -/
def countOf (count : Nat) (noun : String) : String :=
  decimal count ++ " " ++ noun ++ if count = 1 then "" else "s"

inductive Failure where
  | noHome
  | configMissing (path : FilePath)
  | unreadable (path : FilePath)
  | badConfig (path : FilePath)
  | badChainFile (path : FilePath)
  | badJson (path : FilePath)
  | noTargets (chain : UInt64)
  | notATarget (minion : String) (chain : UInt64)
  | targetsFailed (chain : UInt64) (failed total : Nat)
  | unknownMinion (minion : String)
  | filesLeft (chain : UInt64) (chunk : UInt32) (count : Nat)
  deriving DecidableEq, Repr

def Failure.message : Failure → String
  | .noHome => "Could not determine home directory"
  | .configMissing path => "Config file not found: " ++ path.text
  | .unreadable path => "Could not read " ++ path.text
  | .badConfig path => "Invalid config format in " ++ path.text
  | .badChainFile path => "Invalid chain file format in " ++ path.text
  | .badJson path => "Invalid JSON in " ++ path.text
  | .noTargets chain => "Action chain " ++ decimal chain.toNat ++ " has no targets"
  | .notATarget minion chain =>
    "Minion '" ++ minion ++ "' is not a target of action chain " ++ decimal chain.toNat
  | .targetsFailed chain failed total =>
    "Action chain " ++ decimal chain.toNat ++ " failed for " ++ decimal failed ++ " of "
      ++ countOf total "target"
  | .unknownMinion minion =>
    "Unknown minion '" ++ minion ++ "'. Add it to [targets] in the config file"
  | .filesLeft chain chunk count =>
    "Cleanup of action chain " ++ decimal chain.toNat ++ " chunk " ++ decimal chunk.toNat ++ " left "
      ++ countOf count "path" ++ " behind"

end ChunkedChain
