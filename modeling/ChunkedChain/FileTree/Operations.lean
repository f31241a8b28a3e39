import ChunkedChain.FileTree.Basic

/-!
# Operations on file trees

What the system does with a path. A path that is too long as a text is refused before anything is looked
up. Any other is walked component by component; every component but the last must be a directory that is
there. An operation that fails leaves the tree as it was, but for
`createDirectories`, which keeps the directories it made before it failed.
-/

namespace ChunkedChain

inductive FileError where
  | notFound
  | alreadyExists
  | notDirectory
  | isDirectory
  | noSpace
  | nameTooLong
  | nulInName
  | outOfMemory
  deriving DecidableEq, Repr

def FileError.message : FileError → String
  | .notFound => "No such file or directory (os error 2)"
  | .alreadyExists => "File exists (os error 17)"
  | .notDirectory => "Not a directory (os error 20)"
  | .isDirectory => "Is a directory (os error 21)"
  | .noSpace => "No space left on device (os error 28)"
  | .nameTooLong => "File name too long (os error 36)"
  | .nulInName => "file name contained an unexpected NUL byte"
  | .outOfMemory => "out of memory"

namespace FileTree

/-- The number of bytes a name may have. -/
def maxNameLength : Nat := 255

/-- Where a step leads from a location, which must be a directory. -/
def step (tree : FileTree) (location : Location) (component : Component) : Except FileError Location :=
  match tree.node? location with
  | none => .error .notFound
  | some .directory =>
    match component with
    | .here => .ok location
    | .up => .ok location.dropLast
    | .name name =>
      if maxNameLength < name.length then .error .nameTooLong else .ok (location ++ [name])
  | some _ => .error .notDirectory

def walk (tree : FileTree) (location : Location) : List Component → Except FileError Location
  | [] => .ok location
  | component :: rest =>
    match tree.step location component with
    | .ok next => tree.walk next rest
    | .error e => .error e

def start (tree : FileTree) (path : FilePath) : Location :=
  if path.isAbsolute then [] else tree.workingDirectory

def locate (tree : FileTree) (path : FilePath) : Except FileError Location :=
  if path.holdsNul then .error .nulInName
  else if path.text.isEmpty then .error .notFound
  else if path.isTooLong then .error .nameTooLong
  else tree.walk (tree.start path)
    (path.components ++ if path.asksDirectory then [.here] else [])

def find (tree : FileTree) (path : FilePath) : Except FileError Node := do
  let location ← tree.locate path
  match tree.node? location with
  | some node => .ok node
  | none => .error .notFound

def exists? (tree : FileTree) (path : FilePath) : Bool := (tree.find path).toOption.isSome

/-- The content of a file. A device gives bytes without end, until they do not fit into memory. -/
def read (tree : FileTree) (path : FilePath) : Except FileError ByteArray := do
  match ← tree.find path with
  | .file content => .ok content
  | .directory => .error .isDirectory
  | .fullDevice => .error .outOfMemory

/-- The text of a file, if it can be read and is a text. -/
def readText? (tree : FileTree) (path : FilePath) : Option String :=
  (tree.read path).toOption.bind String.fromUTF8?

/-- Writes a file: the content replaces what was in it. -/
def write (tree : FileTree) (path : FilePath) (content : ByteArray) : Except FileError FileTree := do
  let location ← tree.locate path
  match tree.node? location with
  | some .directory => .error .isDirectory
  | some .fullDevice => if content.isEmpty then .ok tree else .error .noSpace
  | _ => .ok (tree.putAt location (.file content))

/-- Removes a file or a device, but no directory. -/
def remove (tree : FileTree) (path : FilePath) : Except FileError FileTree := do
  let location ← tree.locate path
  match tree.node? location with
  | none => .error .notFound
  | some .directory => .error .isDirectory
  | some _ => .ok (tree.erase location)

def list (tree : FileTree) (path : FilePath) : Except FileError (List FileName) := do
  let location ← tree.locate path
  match tree.node? location with
  | none => .error .notFound
  | some .directory => .ok (tree.names location)
  | some _ => .error .notDirectory

def makeDirectory (tree : FileTree) (start : Location) (steps : List Component) :
    Except FileError FileTree := do
  let location ← tree.walk start steps
  if (tree.node? location).isSome then .error .alreadyExists
  else .ok (tree.putAt location .directory)

def leadsToDirectory (tree : FileTree) (start : Location) (steps : List Component) : Bool :=
  match tree.walk start steps with
  | .ok location => tree.node? location = some .directory
  | .error _ => false

/-- Makes one directory unless it is there already. -/
def ensureDirectory (tree : FileTree) (start : Location) (steps : List Component) :
    FileTree × Except FileError Unit :=
  match tree.makeDirectory start steps with
  | .ok made => (made, .ok ())
  | .error e =>
    (tree, if e = .alreadyExists && tree.leadsToDirectory start steps then .ok () else .error e)

/-- Makes the directory that the steps, last first, lead to. If the way there is missing, the way is made
first. -/
def ensureDirectories (tree : FileTree) (start : Location) :
    (reversed : List Component) → FileTree × Except FileError Unit
  | [] => (tree, .ok ())
  | last :: before =>
    let steps := (last :: before).reverse
    match tree.makeDirectory start steps with
    | .error .notFound =>
      match tree.ensureDirectories start before with
      | (made, .ok ()) => made.ensureDirectory start steps
      | failed => failed
    | _ => tree.ensureDirectory start steps

/-- Makes the directory that a path names, and those on the way to it. A path that ends in `.` is not
made as such, only those on the way are. -/
def createDirectories (tree : FileTree) (path : FilePath) : FileTree × Except FileError Unit :=
  if path.holdsNul then (tree, .error .nulInName)
  else if path.isTooLong then (tree, .error .nameTooLong)
  else
    let start := tree.start path
    match path.components.reverse with
    | .here :: before =>
      let steps := path.components
      match tree.makeDirectory start steps with
      | .error .notFound =>
        match tree.ensureDirectories start ((before.dropWhile (· = .here)).drop 1) with
        | (made, .ok ()) => made.ensureDirectory start steps
        | failed => failed
      | _ => tree.ensureDirectory start steps
    | reversed => tree.ensureDirectories start reversed

end FileTree

end ChunkedChain
