/-!
# File paths

A path is a text; joining paths never tidies it up. Only a file tree gives it a meaning, component by
component.
-/

namespace ChunkedChain

/-- The name of a file inside its directory: bytes, for not every name is a text. -/
abbrev FileName := List UInt8

namespace FileName

def ofString (text : String) : FileName := text.toUTF8.data.toList

/-- The text of a name, if it is one. -/
def text? (name : FileName) : Option String := String.fromUTF8? ⟨name.toArray⟩

end FileName

/-- Where a file is: the names on the way from the root. -/
abbrev Location := List FileName

/-- A path as it is written. -/
structure FilePath where
  text : String
  deriving DecidableEq, Repr

inductive Component where
  | here
  | up
  | name (name : FileName)
  deriving DecidableEq, Repr

namespace FilePath

/-- The path of `name` seen from `dir`. An absolute name stands for itself. -/
def join (dir : FilePath) (name : String) : FilePath :=
  if name.toList.head? = some '/' then ⟨name⟩
  else if dir.text.toList.getLast?.all (· = '/') then ⟨dir.text ++ name⟩
  else ⟨dir.text ++ "/" ++ name⟩

instance : HDiv FilePath String FilePath := ⟨join⟩

def isAbsolute (path : FilePath) : Bool := path.text.toList.head? = some '/'

def asksDirectory (path : FilePath) : Bool := path.text.toList.getLast? = some '/'

def component? : List Char → Option Component
  | [] => none
  | ['.'] => some .here
  | ['.', '.'] => some .up
  | piece => some (.name (FileName.ofString (String.ofList piece)))

def components (path : FilePath) : List Component :=
  (path.text.toList.splitOn '/').filterMap component?

/-- Whether the system refuses the path at once: no path holds a NUL character. -/
def holdsNul (path : FilePath) : Bool := path.text.toList.contains '\x00'

/-- The number of bytes a path may have. -/
def maxLength : Nat := 4095

/-- Whether the path is longer than the system takes, whatever it leads to. -/
def isTooLong (path : FilePath) : Bool := maxLength < path.text.utf8ByteSize

end FilePath

end ChunkedChain
