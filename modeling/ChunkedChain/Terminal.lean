import ChunkedChain.Log

/-!
# The terminal

What a command shows, as data: lines of styled spans on two streams, with the log entries between them. A
screen renders the same events with or without colours.
-/

namespace ChunkedChain

inductive Style where
  | blue | green | yellow | red | bold | dim
  /-- The look of a section's title: bold, in cyan. -/
  | title
  deriving DecidableEq, Repr

namespace Style

def code : Style → String
  | .blue => "34"
  | .green => "32"
  | .yellow => "33"
  | .red => "31"
  | .bold => "1"
  | .dim => "2"
  | .title => "1;36"

def opening (style : Style) : String := "\x1b[" ++ style.code ++ "m"

def reset : String := "\x1b[0m"

def wrap (style : Style) (text : String) : String :=
  style.opening ++ (reset ++ style.opening).intercalate (text.splitOn reset) ++ reset

end Style

/-- A piece of a line, in a style or plain. -/
structure Span where
  text : String
  style : Option Style := none
  deriving DecidableEq, Repr

namespace Span

def render (coloured : Bool) (span : Span) : String :=
  match span.style with
  | some style => if coloured then style.wrap span.text else span.text
  | none => span.text

end Span

abbrev Line := List Span

def Line.render (coloured : Bool) (line : Line) : String :=
  String.join (line.map (Span.render coloured)) ++ "\n"

instance : Coe String Span := ⟨fun text => ⟨text, none⟩⟩

/-- Something that a command lets the user see. -/
inductive Event where
  /-- A line of the answer. -/
  | shown (line : Line)
  /-- A line about what went wrong. -/
  | complaint (line : Line)
  | logged (entry : LogEntry)
  deriving DecidableEq, Repr

namespace Event

def info (text : String) : Event := .shown [⟨"ℹ", some .blue⟩, " ", text]

def success (text : String) : Event := .shown [⟨"✓", some .green⟩, " ", text]

def warning (text : String) : Event := .shown [⟨"⚠", some .yellow⟩, " ", text]

def problem (text : String) : Event := .complaint [⟨"✗", some .red⟩, " ", text]

def blank : Event := .shown []

def plain (text : String) : Event := .shown [text]

def detail (text : String) : Event := .shown ["  ", ⟨text, some .dim⟩]

def field (name value : String) : Event := .shown ["  ", ⟨name, some .dim⟩, ": ", value]

def heading (title : String) : List Event :=
  [.blank, .shown [⟨title, some .bold⟩], .shown [⟨"".pushn '─' title.length, some .dim⟩]]

def sectionTitle (title : String) : List Event := [.blank, .shown [⟨title, some .title⟩]]

def logged? : Event → Option LogEntry
  | .logged entry => some entry
  | _ => none

end Event

def Log.events (log : Log) : List Event := log.map .logged

/-- What a user gets to see of events. -/
structure Screen where
  coloured : Bool
  /-- The least grave level of the log entries that are shown. -/
  finest : Level
  deriving DecidableEq, Repr

namespace Screen

def shows (screen : Screen) (entry : LogEntry) : Bool := entry.level.detail ≤ screen.finest.detail

def log (screen : Screen) (events : List Event) : Log :=
  (events.filterMap Event.logged?).filter screen.shows

def answerText (screen : Screen) : Event → String
  | .shown line => line.render screen.coloured
  | _ => ""

def besideText (screen : Screen) : Event → String
  | .shown _ => ""
  | .complaint line => line.render screen.coloured
  | .logged entry => if screen.shows entry then entry.line ++ "\n" else ""

def answer (screen : Screen) (events : List Event) : String :=
  String.join (events.map screen.answerText)

def besides (screen : Screen) (events : List Event) : String :=
  String.join (events.map screen.besideText)

end Screen

end ChunkedChain
