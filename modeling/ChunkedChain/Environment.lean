import ChunkedChain.Entries
import ChunkedChain.Log
import ChunkedChain.Store
import ChunkedChain.Text.Alphanumeric

/-!
# Environment and resolved paths

Where the program looks for its configuration and for the states root. Paths from variables and from the
configuration are expanded as a shell would expand them: first variables, then a leading tilde. A path
from the command line is taken as it is.
-/

namespace ChunkedChain

abbrev Environment := Entries String

/-- The value of a variable. The environment is read as texts of a name, an equals sign and a value, and the
first that starts with the name and an equals sign counts. So a name that holds an equals sign itself may
find the end of a longer value. -/
def Environment.value? (env : Environment) (name : String) : Option String :=
  if name.isEmpty then none
  else env.findSome? fun (key, value) =>
    ((name ++ "=").toList.isPrefixOf? (key ++ "=" ++ value).toList).map String.ofList

namespace Expansion

def isNameCharacter (c : Char) : Bool := Text.isAlphanumeric c || c == '_'

/-- Splits the inside of braces at the first `:-` that does not stand at its start. -/
def splitDefault (inside : List Char) : List Char × Option (List Char) :=
  let rec go : List Char → Option (List Char × List Char)
    | ':' :: '-' :: rest => some ([], rest)
    | c :: rest => (go rest).map fun (before, after) => (c :: before, after)
    | [] => none
  match go inside with
  | some (c :: name, default) => (c :: name, some default)
  | _ => (inside, none)

/-- The value that the inside of braces stands for: that of the variable, else the default. -/
def braced (env : Environment) (inside : List Char) : Option (List Char) :=
  let (name, default) := splitDefault inside
  match env.value? (String.ofList name) with
  | some value => some value.toList
  | none => default

/-- Replaces variables by their values, with no more than `fuel` characters still to read. There is no
result if a variable without default is not set. A dollar that opens nothing stays, two of them are one,
and an open brace that is never closed stays. -/
def substitute (env : Environment) : (fuel : Nat) → List Char → Option (List Char)
  | 0, text => some text
  | _, [] => some []
  | fuel + 1, '$' :: '\x7b' :: rest =>
    if rest.contains '\x7d' then do
      let value ← braced env (rest.takeWhile (· ≠ '\x7d'))
      let after ← substitute env fuel ((rest.dropWhile (· ≠ '\x7d')).drop 1)
      return value ++ after
    else (substitute env fuel rest).map fun after => '$' :: '\x7b' :: after
  | fuel + 1, '$' :: '$' :: rest => (substitute env fuel rest).map ('$' :: ·)
  | fuel + 1, '$' :: rest =>
    let name := rest.takeWhile isNameCharacter
    if name.isEmpty then (substitute env fuel rest).map ('$' :: ·)
    else do
      let value ← env.value? (String.ofList name)
      let after ← substitute env fuel (rest.dropWhile isNameCharacter)
      return value.toList ++ after
  | fuel + 1, c :: rest => (substitute env fuel rest).map (c :: ·)

/-- Replaces a leading tilde that stands alone or before a slash by the home directory. -/
def tilde (env : Environment) : List Char → List Char
  | '~' :: rest =>
    if rest.head?.all (· = '/') then
      match env.value? "HOME" with
      | some home => home.toList ++ rest
      | none => '~' :: rest
    else '~' :: rest
  | text => text

/-- Expands a path. It stays as it is if a variable is not set. A tilde that only a variable's value has
brought to the front is no sign of the home directory. -/
def expand (env : Environment) (text : String) : String :=
  match substitute env text.toList.length text.toList with
  | none => text
  | some expanded =>
    if text.toList.head? = some '~' then String.ofList (tilde env expanded)
    else String.ofList expanded

end Expansion

namespace Environment

def expand (env : Environment) (text : String) : FilePath := ⟨Expansion.expand env text⟩

def configVariable : String := "ACTIONCHAIN_CONFIG_DIR"

/-- The variable that names the states root. -/
def rootVariable : String := "ACTIONCHAIN_STATES_ROOT"

def allConfigsVariable : String := "XDG_CONFIG_HOME"

def programFolder : String := "actionchain"

def configFileName : String := "actionchain.toml"

private def note (message : String) : LogEntry := ⟨.debug, .paths, message⟩

/-- The configuration directory, and what is logged when it is looked for. There is none if the home
directory is not known. -/
def configDirectory (env : Environment) : Option FilePath × Log :=
  match env.value? configVariable with
  | some dir =>
    let path := env.expand dir
    (some path, [note ("Using config dir from " ++ configVariable ++ ": " ++ path.text)])
  | none =>
    match env.value? allConfigsVariable with
    | some dir =>
      let path := FilePath.mk dir / programFolder
      (some path, [note ("Using XDG_CONFIG_HOME: " ++ path.text)])
    | none =>
      match env.value? "HOME" with
      | some home =>
        let path := FilePath.mk home / ".config" / programFolder
        (some path, [note ("Using default config dir: " ++ path.text)])
      | none => (none, [])

def configFile (env : Environment) : Option FilePath × Log :=
  let (dir, log) := env.configDirectory
  (dir.map (· / configFileName), log)

/-- The root of the states tree: as the command line says, else as the environment says, else as the
configuration says. -/
def statesRoot (env : Environment) (flag : Option FilePath) (configured : Option String) :
    FilePath × Log :=
  match flag with
  | some root => (root, [note ("Using states root from command line: " ++ root.text)])
  | none =>
    match env.value? rootVariable with
    | some root =>
      let path := env.expand root
      (path, [note ("Using states root from " ++ rootVariable ++ ": " ++ path.text)])
    | none =>
      match configured with
      | some root =>
        let path := env.expand root
        (path, [note ("Using states root from config: " ++ path.text)])
      | none => (defaultRoot, [])

end Environment

end ChunkedChain
