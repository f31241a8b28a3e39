import ChunkedChain.Chunk
import ChunkedChain.FileTree.Operations
import ChunkedChain.Yaml.Sheet

/-!
# The store of chunk files

Below the states root, the documents of chunks stand in one directory and the scripts in another one
inside it. The files of a chain are written one after the other: for each chunk its scripts, then its
document, so a document never stands there before the scripts it names. The first write that fails stops
the rest. Writing replaces what was in a file.
-/

namespace ChunkedChain

/-- The kinds of failure that a user can act on. -/
inductive ErrorCategory where
  | storage | serialization | invalidInput
  deriving DecidableEq, Repr

namespace ErrorCategory

/-- What went wrong, in general terms. -/
def description : ErrorCategory → String
  | .storage => "Could not write action chain files"
  | .serialization => "Could not render SLS document"
  | .invalidInput => "Invalid action chain input"

def advice : ErrorCategory → String
  | .storage => "Check that the states root exists and is writable"
  | .serialization => "Check the step arguments for values YAML cannot represent"
  | .invalidInput => "Machine ids must not contain path separators"

end ErrorCategory

inductive StoreError where
  | createDirectory (path : FilePath) (cause : FileError)
  | write (path : FilePath) (cause : FileError)
  | render (path : FilePath) (cause : FileError)
  | invalidFileName (name : String)
  deriving DecidableEq, Repr

namespace StoreError

def message : StoreError → String
  | .createDirectory path cause =>
    "could not create action chain directory " ++ path.text ++ ": " ++ cause.message
  | .write path cause => "could not write " ++ path.text ++ ": " ++ cause.message
  | .render path cause => "could not render " ++ path.text ++ ": YAML error: " ++ cause.message
  | .invalidFileName name => "invalid file name: " ++ name

def category : StoreError → ErrorCategory
  | .createDirectory _ _ => .storage
  | .write _ _ => .storage
  | .render _ _ => .serialization
  | .invalidFileName _ => .invalidInput

end StoreError

/-- Whether a text is the name of a file that stands directly in the directory it is looked up in. -/
def isFileName (name : String) : Bool :=
  !(name.isEmpty || name == "." || name == ".." || name.toList.contains '/' || name.toList.contains '\\')

/-- A single file to write: a script, or the document of some steps. -/
inductive FileWrite where
  | script (file : ScriptFile)
  | document (name : String) (steps : List Step)

namespace Chunk

def writes (chunk : Chunk) : List FileWrite :=
  chunk.scripts.map .script ++ [.document chunk.fileName chunk.documentSteps]

end Chunk

def renderDocument (steps : List Step) : String := Yaml.document (Document.value steps)

/-- The root of the states tree where nothing else is said. -/
def defaultRoot : FilePath := ⟨"/srv/susemanager/salt"⟩

/-- A place for the files of chains. -/
structure Store where
  root : FilePath := defaultRoot
  deriving DecidableEq, Repr

namespace Store

def chainsDirectory (store : Store) : FilePath := store.root / chainsFolder

def scriptsDirectory (store : Store) : FilePath := store.chainsDirectory / scriptsFolder

def documentPath (store : Store) (chain : UInt64) (machine : String) (number : UInt32) : FilePath :=
  store.chainsDirectory / Chunk.fileNameOf chain machine number

/-- Writes a file in a directory, which is made if it is missing. -/
def writeFile (dir : FilePath) (name content : String) (failure : FilePath → FileError → StoreError)
    (tree : FileTree) : FileTree × Except StoreError FilePath :=
  if !isFileName name then (tree, .error (.invalidFileName name))
  else
    match tree.createDirectories dir with
    | (made, .error e) => (made, .error (.createDirectory dir e))
    | (made, .ok ()) =>
      match made.write (dir / name) content.toUTF8 with
      | .ok written => (written, .ok (dir / name))
      | .error e => (made, .error (failure (dir / name) e))

/-- How many bytes of a document are kept back before the first of them are written. -/
def bufferSize : Nat := 8192

/-- Where a document fails that finds no room: while it is rendered if it does not fit the buffer, else
when the buffer is written at the end. -/
def documentFailure (content : String) (path : FilePath) (cause : FileError) : StoreError :=
  if cause = .noSpace && bufferSize ≤ content.utf8ByteSize then .render path cause
  else .write path cause

def writeDocument (dir : FilePath) (name : String) (steps : List Step) (tree : FileTree) :
    FileTree × Except StoreError FilePath :=
  let content := renderDocument steps
  writeFile dir name content (documentFailure content) tree

def documentLog (steps : List Step) : Except StoreError FilePath → Log
  | .ok path => Document.log steps ++ [⟨.debug, .store, "Wrote " ++ path.text⟩]
  | .error (.invalidFileName _) => []
  | .error (.createDirectory path _) =>
    [⟨.error, .store, "Could not create action chain directory " ++ path.text⟩]
  | .error (.write path cause) =>
    (if cause = .noSpace then Document.log steps else [])
      ++ [⟨.error, .store, "Could not write " ++ path.text⟩]
  | .error (.render path _) =>
    Document.log steps ++ [⟨.error, .store, "Could not write action chain sls " ++ path.text⟩]

def scriptLog : Except StoreError FilePath → Log
  | .ok path => [⟨.debug, .store, "Wrote script " ++ path.text⟩]
  | outcome => documentLog [] outcome

def perform (store : Store) (write : FileWrite) (tree : FileTree) :
    FileTree × Except StoreError FilePath :=
  match write with
  | .script file => writeFile store.scriptsDirectory file.name file.contents .write tree
  | .document name steps => writeDocument store.chainsDirectory name steps tree

end Store

def FileWrite.log : FileWrite → Except StoreError FilePath → Log
  | .script _, outcome => Store.scriptLog outcome
  | .document _ steps, outcome => Store.documentLog steps outcome

def FileWrite.documentPath? : FileWrite × FilePath → Option FilePath
  | (.script _, _) => none
  | (.document _ _, path) => some path

/-- How a list of writes went: the writes done, with the paths written, and the one that failed. -/
structure WriteRun where
  done : List (FileWrite × FilePath) := []
  failure : Option (FileWrite × StoreError) := none

namespace WriteRun

def result (run : WriteRun) : Except StoreError (List FilePath) :=
  match run.failure with
  | some (_, e) => .error e
  | none => .ok (run.done.filterMap FileWrite.documentPath?)

def log (run : WriteRun) : Log :=
  run.done.flatMap (fun (write, path) => write.log (.ok path))
    ++ run.failure.toList.flatMap fun (write, e) => write.log (.error e)

end WriteRun

namespace Store

/-- Carries out writes in order, up to the first that fails. -/
def performAll (store : Store) : List FileWrite → FileTree → FileTree × WriteRun
  | [], tree => (tree, {})
  | write :: rest, tree =>
    match store.perform write tree with
    | (next, .error e) => (next, { failure := some (write, e) })
    | (next, .ok path) =>
      let (last, run) := store.performAll rest next
      (last, { run with done := (write, path) :: run.done })

def chainWrites (chain : Chain) : List FileWrite := (compile chain).flatMap Chunk.writes

/-- Compiles a chain and writes its files. -/
def runChain (store : Store) (chain : Chain) (tree : FileTree) : FileTree × WriteRun :=
  store.performAll (chainWrites chain) tree

def createChainFiles (store : Store) (chain : Chain) (tree : FileTree) :
    FileTree × Except StoreError (List FilePath) :=
  let (last, run) := store.runChain chain tree
  (last, run.result)

def createLog (chain : Chain) (run : WriteRun) : Log :=
  compileLog chain ++ run.log ++
    match run.result with
    | .ok paths =>
      [⟨.info, .generator, "Generated " ++ decimal paths.length ++ " chunk(s) of action chain "
        ++ decimal chain.id.toNat ++ " for " ++ chain.target.minion⟩]
    | .error _ => []

end Store

end ChunkedChain
