import ChunkedChain.CommandLine.Given

/-!
# Scanning a command line

Arguments are read from left to right. A value that stands in an argument of its own, and a word that
stands by its place, are held back and taken when the next one comes or the arguments end; an attached
value and an option without value are taken at once, after what was held back. So of two mistakes the one
taken first is reported. An argument that cannot be an option's, a value's or a word's at all is reported
before what was held back.

The first word that is no option's value calls the subcommand; everything after it belongs to that. What the
subcommand was given is settled before what was held back in front of it.
-/

namespace ChunkedChain

inductive Argument where
  /-- Two dashes: no option follows. -/
  | separator
  | long (name : String) (value : Option String)
  | short (letters : List Char)
  | word (text : String)
  deriving DecidableEq, Repr

namespace Argument

/-- Splits a long option at the first equals sign. -/
def ofLong (chars : List Char) : Argument :=
  match chars.dropWhile (· ≠ '=') with
  | [] => .long (String.ofList chars) none
  | _ :: value => .long (String.ofList (chars.takeWhile (· ≠ '='))) (some (String.ofList value))

/-- What an argument looks like. A single dash is a word. -/
def of (text : String) : Argument :=
  match text.toList with
  | ['-'] => .word text
  | ['-', '-'] => .separator
  | '-' :: '-' :: chars => ofLong chars
  | '-' :: letters => .short letters
  | _ => .word text

/-- The value attached to a letter: what follows it, without an equals sign before it. -/
def attached? : List Char → Option String
  | [] => none
  | '=' :: value => some (String.ofList value)
  | value => some (String.ofList value)

end Argument

structure Scan where
  given : Given := {}
  /-- An item that was not taken yet; without a value it waits for one. -/
  held : Option (Item × Option String) := none
  /-- The place of the only word is taken. -/
  placeTaken : Bool := false
  /-- No option follows. -/
  wordsOnly : Bool := false

namespace Scan

def refuse {α : Type} (why : Refusal) : Except Stop α := .error (.refused why)

/-- Whether an option waits for its value. -/
def waits (scan : Scan) : Bool :=
  match scan.held with
  | some (_, none) => true
  | _ => false

/-- Takes what was held back. -/
def settle (scan : Scan) : Except Stop Scan :=
  match scan.held with
  | none => .ok scan
  | some (item, value) =>
    match scan.given.put item value with
    | .ok given => .ok { scan with given, held := none }
    | .error why => refuse why

def take (scan : Scan) (item : Item) (value : Option String) : Except Stop Scan := do
  let scan ← scan.settle
  { scan with held := some (item, value) }.settle

/-- Takes what was held back, and holds an item back. -/
def hold (scan : Scan) (item : Item) (value : Option String) : Except Stop Scan := do
  let scan ← scan.settle
  return { scan with held := some (item, value) }

def option (scope : Scope) (scan : Scan) (switch : Switch) (attached : Option String) :
    Except Stop Scan :=
  match switch, attached with
  | .help, none => do
    let _ ← scan.settle
    .error .help
  | .version, none => do
    let _ ← scan.settle
    .error (.version scope)
  | .help, some _ => refuse (.needlessValue "help")
  | .version, some _ => refuse (.needlessValue "version")
  | .give item, attached =>
    if item.takesValue then
      match attached with
      | some value => scan.take item (some value)
      | none => scan.hold item none
    else
      match attached with
      | some _ => refuse (.needlessValue (item.long?.getD ""))
      | none => scan.take item none

/-- Reads letters after one dash. A letter whose option takes a value is the last one. -/
def letters (scope : Scope) (scan : Scan) : List Char → Except Stop Scan
  | [] => .ok scan
  | letter :: rest =>
    match Switch.short? scope letter with
    | none => refuse (.unknownArgument ("-" ++ letter.toString))
    | some switch =>
      if switch.takesValue then scan.option scope switch (Argument.attached? rest)
      else do (← scan.option scope switch none).letters scope rest

/-- Reads a word that is no option's value. -/
def place (scope : Scope) (scan : Scan) (text : String) : Except Stop Scan :=
  match scope, scope.word? with
  | .root, _ =>
    refuse <|
      if scan.wordsOnly && (text = "help" || (Subcommand.ofName? text).isSome) then .unknownArgument text
      else .invalidSubcommand text
  | .sub _, none => refuse (.unknownArgument text)
  | .sub _, some item =>
    if scan.placeTaken && !item.isListed then refuse (.unknownArgument text)
    else do
      let scan ← scan.hold item (some text)
      return { scan with placeTaken := true }

def step (scope : Scope) (scan : Scan) (text : String) : Except Stop Scan :=
  if scan.wordsOnly then scan.place scope text
  else
    match Argument.of text with
    | .separator => .ok { scan with wordsOnly := true }
    | .long name value =>
      match Switch.long? scope name with
      | some switch => scan.option scope switch value
      | none => refuse (.unknownArgument ("--" ++ name))
    | .short chars => scan.letters scope chars
    | .word text =>
      match scan.held with
      | some (item, none) => .ok { scan with held := some (item, some text) }
      | _ => scan.place scope text

def run (scope : Scope) (arguments : List String) : Except Stop Given := do
  let last ← arguments.foldlM (step scope) {}
  return (← last.settle).given

end Scan

namespace Invocation

/-- Reads the words after the word for help: at most one, a subcommand or the word for help again. -/
def help : List String → Except Stop Invocation
  | [] => .error .help
  | word :: rest =>
    if word = "help" || (Subcommand.ofName? word).isSome then
      match rest with
      | [] => .error .help
      | other :: _ => Scan.refuse (.invalidSubcommand other)
    else Scan.refuse (.invalidSubcommand word)

/-- Reads a command line of which the scan has seen the start. -/
def readOn (scan : Scan) : List String → Except Stop Invocation
  | [] => do
    let last ← scan.settle
    Scan.refuse (if last.given = {} then .nothingGiven else .missingSubcommand)
  | word :: rest => do
    if scan.wordsOnly || scan.waits then readOn (← scan.step .root word) rest
    else if word = "help" then help rest
    else
      match Subcommand.ofName? word with
      | none => readOn (← scan.step .root word) rest
      | some subcommand =>
        let inner ← Scan.run (.sub subcommand) rest
        match inner.command subcommand with
        | .error why => Scan.refuse why
        | .ok command =>
          let outer ← scan.settle
          return ⟨inner.settings.within outer.given.settings, command⟩

def parse (arguments : List String) : Except Stop Invocation := readOn {} arguments

end Invocation

end ChunkedChain
