import ChunkedChain.Decimal.Shortest
import ChunkedChain.Value
import ChunkedChain.Yaml.Scalar

/-!
# Writing YAML

Values are written in block style, two columns deeper for each level, lines as long as they need to be. A
`Sheet` is the text so far with what the next piece has to know of it: the column, whether a separating
space is needed, and whether the line holds nothing but indentation and structure yet. A list that is the
value of an entry stands at the entry's own indentation.
-/

namespace ChunkedChain.Yaml

/-- The text written so far, and the state of its last line. -/
structure Sheet where
  text : String := ""
  column : Nat := 0
  /-- The last thing written was white space. -/
  spaced : Bool := true
  /-- The line holds only indentation and structure. -/
  fresh : Bool := true

namespace Sheet

def put (sheet : Sheet) (c : Char) : Sheet :=
  { sheet with text := sheet.text.push c, column := sheet.column + 1 }

def puts (sheet : Sheet) (piece : List Char) : Sheet := piece.foldl put sheet

def endLine (sheet : Sheet) (c : Char) : Sheet :=
  { sheet with text := sheet.text.push c, column := 0 }

/-- Moves to column `indent` of a line that is fresh: the current one if it is and has not come too far,
else a new one. -/
def indentTo (sheet : Sheet) (indent : Int) : Sheet :=
  let target := indent.toNat
  let moved :=
    if !sheet.fresh || target < sheet.column || (sheet.column == target && !sheet.spaced) then
      sheet.endLine '\n'
    else sheet
  let padded := moved.puts (List.replicate (target - moved.column) ' ')
  { padded with spaced := true, fresh := true }

/-- Writes a space unless there is white space already. -/
def separate (sheet : Sheet) : Sheet := if sheet.spaced then sheet else sheet.put ' '

/-- Writes a mark of the structure. A mark that opens an item leaves the line as fresh as it was. -/
def mark (sheet : Sheet) (text : String) (opensItem : Bool) : Sheet :=
  let written := sheet.puts text.toList
  { written with spaced := false, fresh := sheet.fresh && opensItem }

def endScalar (sheet : Sheet) : Sheet := { sheet with spaced := false, fresh := false }

def plain (sheet : Sheet) (text : List Char) : Sheet := (sheet.separate.puts text).endScalar

/-- Writes the inside of single quotes; `broken` tells whether a line has just ended. A line end is
written twice where a single one would be read as a space. -/
def singleQuoted (indent : Int) : (broken : Bool) → List Char → Sheet → Sheet
  | broken, [], sheet => if broken then sheet.indentTo indent else sheet
  | broken, c :: rest, sheet =>
    if isBreak c then
      let doubled := if !broken && c == '\n' then sheet.endLine '\n' else sheet
      singleQuoted indent true rest { doubled.endLine c with fresh := true }
    else
      let placed := if broken then sheet.indentTo indent else sheet
      let escaped := if c == '\x27' then placed.put '\x27' else placed
      singleQuoted indent false rest { escaped.put c with fresh := false }

def single (sheet : Sheet) (indent : Int) (text : List Char) : Sheet :=
  let opened := sheet.separate.mark "\x27" false
  ((singleQuoted indent false text opened).mark "\x27" false).endScalar

def hexadecimal (width n : Nat) : List Char :=
  let digits := (Nat.toDigits 16 n).map Char.toUpper
  List.replicate (width - digits.length) '0' ++ digits

def escaped (c : Char) : List Char :=
  if c == '\x22' || c == '\\' then ['\\', c]
  else if isPrintable c && !isBreak c then [c]
  else match c.toNat with
    | 0x00 => ['\\', '0']
    | 0x07 => ['\\', 'a']
    | 0x08 => ['\\', 'b']
    | 0x09 => ['\\', 't']
    | 0x0A => ['\\', 'n']
    | 0x0B => ['\\', 'v']
    | 0x0C => ['\\', 'f']
    | 0x0D => ['\\', 'r']
    | 0x1B => ['\\', 'e']
    | 0x85 => ['\\', 'N']
    | 0xA0 => ['\\', '_']
    | 0x2028 => ['\\', 'L']
    | 0x2029 => ['\\', 'P']
    | n =>
      if n ≤ 0xFF then '\\' :: 'x' :: hexadecimal 2 n
      else if n ≤ 0xFFFF then '\\' :: 'u' :: hexadecimal 4 n
      else '\\' :: 'U' :: hexadecimal 8 n

def double (sheet : Sheet) (text : List Char) : Sheet :=
  let opened := sheet.separate.mark "\x22" false
  ((opened.puts (text.flatMap escaped)).mark "\x22" false).endScalar

/-- What tells a reader how the ends of a literal block are meant: its indentation if the first line
could hide it, and whether the line ends at its end are dropped or kept. -/
def literalHints (text : List Char) : List Char :=
  let indentation := if text.head?.any isSpaceOrBreak then ['2'] else []
  let ending := match text.reverse with
    | [] => ['-']
    | c :: before =>
      if !isBreak c then ['-'] else if before.head?.all isBreak then ['+'] else []
  indentation ++ ending

/-- Writes the lines of a literal block; `broken` tells whether a line has just ended. -/
def literalLines (indent : Int) : (broken : Bool) → List Char → Sheet → Sheet
  | _, [], sheet => sheet
  | broken, c :: rest, sheet =>
    if isBreak c then literalLines indent true rest { sheet.endLine c with fresh := true }
    else
      let placed := if broken then sheet.indentTo indent else sheet
      literalLines indent false rest { placed.put c with fresh := false }

def literal (sheet : Sheet) (indent : Int) (text : List Char) : Sheet :=
  let opened := (sheet.separate.mark "|" false).puts (literalHints text)
  literalLines indent true text { opened.endLine '\n' with spaced := true, fresh := true }

def inner (indent : Int) (atRoot : Int) : Int := if indent < 0 then atRoot else indent + 2

def scalar (sheet : Sheet) (indent : Int) (asKey : Bool) (text : String) : Sheet :=
  let characters := text.toList
  match Form.of asKey characters with
  | .plain => sheet.plain characters
  | .single => sheet.single (inner indent 2) characters
  | .double => sheet.double characters
  | .literal => sheet.literal (inner indent 2) characters

def isSimpleKey (key : String) : Bool := !key.toList.any isBreak && key.utf8ByteSize ≤ 128

def key (sheet : Sheet) (indent : Int) (name : String) : Sheet :=
  if isSimpleKey name then ((sheet.indentTo indent).scalar indent true name).mark ":" false
  else
    let asked := ((sheet.indentTo indent).separate.mark "?" true).scalar indent false name
    (asked.indentTo indent).separate.mark ":" true

mutual

/-- Writes a value inside a node at `indent`; `inEntry` tells whether it is the value of an entry. -/
def node (indent : Int) (inEntry : Bool) : Value → Sheet → Sheet
  | .null, sheet => sheet.plain "null".toList
  | .bool b, sheet => sheet.plain (if b then "true" else "false").toList
  | .int n, sheet => sheet.plain ((if n < 0 then ['-'] else []) ++ Nat.toDigits 10 n.natAbs)
  | .float x, sheet => sheet.plain (Decimal.documents.write x).toList
  | .text s, sheet => sheet.scalar indent false s
  | .list [], sheet => sheet.separate.mark "[]" false
  | .list (first :: rest), sheet =>
    let depth := if 0 ≤ indent && inEntry && !sheet.fresh then indent else inner indent 0
    items depth rest (node depth false first ((sheet.indentTo depth).separate.mark "-" true))
  | .object [], sheet => sheet.separate.mark "\x7b\x7d" false
  | .object (first :: rest), sheet =>
    entries (inner indent 0) rest (entry (inner indent 0) first sheet)

def items (indent : Int) : List Value → Sheet → Sheet
  | [], sheet => sheet
  | item :: rest, sheet =>
    items indent rest (node indent false item ((sheet.indentTo indent).separate.mark "-" true))

def entries (indent : Int) : List (String × Value) → Sheet → Sheet
  | [], sheet => sheet
  | first :: rest, sheet => entries indent rest (entry indent first sheet)

def entry (indent : Int) : String × Value → Sheet → Sheet
  | (name, value), sheet => node indent true value (sheet.key indent name)

end

end Sheet

def document (value : Value) : String := ((Sheet.node (-1) false value {}).indentTo (-1)).text

end ChunkedChain.Yaml
