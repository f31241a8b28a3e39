import ChunkedChain.Environment
import ChunkedChain.Failure
import ChunkedChain.FileTree.Operations
import ChunkedChain.Toml.Document

/-!
# Configuration

The configuration file gives the states root and the machine ids of minions. A file that the user names
must be there; without one, a missing file at the default place means the defaults.
-/

namespace ChunkedChain

structure Config where
  statesRoot : Option String := none
  /-- The machine id of each known minion. -/
  machines : Entries String := []

namespace Config

/-- The texts of an object all of whose fields are texts. -/
def texts? (value : Value) : Option (Entries String) := do
  (← value.fields?).mapM fun (key, field) => do return (key, ← field.text?)

/-- The configuration that a document holds. It may not hold anything else. -/
def ofValue? (value : Value) : Option Config := do
  let fields ← value.fields?
  guard (fields.all fun (key, _) => key == "states_root" || key == "targets")
  let statesRoot ← match Entries.get? "states_root" fields with
    | none => some none
    | some root => root.text?.map some
  let machines ← match Entries.get? "targets" fields with
    | none => some []
    | some targets => texts? targets
  return { statesRoot, machines }

/-- Loads the file at `path`; without a file there are the defaults. -/
def loadFrom (tree : FileTree) (path : FilePath) : Except Failure Config × Log :=
  if tree.exists? path then
    match tree.readText? path with
    | none => (.error (.unreadable path), [])
    | some text =>
      match (Toml.parse? text).bind ofValue? with
      | none => (.error (.badConfig path), [])
      | some config =>
        (.ok config, [⟨.debug, .config, "Loaded " ++ path.text ++ " with "
          ++ decimal config.machines.length ++ " target(s)"⟩])
  else
    (.ok {}, [⟨.debug, .config, "No config at " ++ path.text ++ ", using defaults"⟩])

/-- Loads the file that the user names, or else the one at the default place. -/
def load (tree : FileTree) (env : Environment) (named : Option FilePath) :
    Except Failure Config × Log :=
  match named with
  | some path =>
    if tree.exists? path then loadFrom tree path else (.error (.configMissing path), [])
  | none =>
    match env.configFile with
    | (some path, log) =>
      let (config, more) := loadFrom tree path
      (config, log ++ more)
    | (none, log) => (.error .noHome, log)

end Config

end ChunkedChain
