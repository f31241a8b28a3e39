import ChunkedChain.Decimal.Numeral
import ChunkedChain.StateId

/-!
# Script files

Each script of a chain is kept in a file whose name tells the chain, the machine, the chunk and the
action. Machine ids are free text and may hold any part of the grammar of names, so `chunk?` accepts only
a name that is exactly the one machine's: its stem, a numeral, the action mark, a numeral, `.sh`.
-/

namespace ChunkedChain

/-- What stands before and after the first occurrence of `separator`. -/
def Text.splitFirst? (separator : List Char) : List Char → Option (List Char × List Char)
  | [] => (separator.isPrefixOf? []).map ([], ·)
  | c :: rest =>
    match separator.isPrefixOf? (c :: rest) with
    | some after => some ([], after)
    | none => (splitFirst? separator rest).map fun (before, after) => (c :: before, after)

/-- The name of the directory for the files of action chains. -/
def chainsFolder : String := "actionchains"

/-- The name of the directory for scripts, inside that for chains. -/
def scriptsFolder : String := "scripts"

/-- A script and the name of its file. -/
structure ScriptFile where
  name : String
  contents : String
  deriving DecidableEq, Repr

namespace ScriptFile

def opening : String := "script_suma_actionchain_"

def extension : String := ".sh"

/-- What the names of all scripts of one chain on one machine start with, up to the chunk number. -/
def stem (chain : UInt64) (machine : String) : String :=
  opening ++ decimal chain.toNat ++ "_" ++ machine ++ StateId.chunkMark

def nameOf (chain : UInt64) (machine : String) (chunk : UInt32) (action : UInt64) : String :=
  stem chain machine ++ decimal chunk.toNat ++ StateId.actionMark ++ decimal action.toNat ++ extension

/-- The address under which the node fetches a script. -/
def source (name : String) : String :=
  "salt://" ++ chainsFolder ++ "/" ++ scriptsFolder ++ "/" ++ name

/-- The chunk number in a script name of this chain on this machine. -/
def chunk? (name : String) (chain : UInt64) (machine : String) : Option UInt32 := do
  let rest ← (stem chain machine).toList.isPrefixOf? name.toList
  let middle ← extension.toList.isSuffixOf? rest
  let (chunk, action) ← Text.splitFirst? StateId.actionMark.toList middle
  guard (Numeral.isNumeral chunk && Numeral.isNumeral action)
  Numeral.word32? chunk

end ScriptFile

end ChunkedChain
