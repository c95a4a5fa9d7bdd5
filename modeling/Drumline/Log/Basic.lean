import Drumline.Compact
import Drumline.Options
import Drumline.State
import Drumline.Text.Quoted
import Drumline.Text.Terminal

/-! The log.  An `Event` is something worth reporting about a conversion; its level decides whether
it is shown and its message is what is shown. -/

namespace Drumline

/-- How much an event matters, the most important level first. -/
inductive Level where
  | error
  | warn
  | info
  | debug
  | trace
  deriving DecidableEq

namespace Level

def rank : Level → Nat
  | error => 0
  | warn => 1
  | info => 2
  | debug => 3
  | trace => 4

def name : Level → List Char
  | error => "ERROR".toList
  | warn => "WARN".toList
  | info => "INFO".toList
  | debug => "DEBUG".toList
  | trace => "TRACE".toList

/-- The least important level that is shown: `quiet` wins over `verbose`. -/
def ofFlags (verbose quiet : Bool) : Level :=
  if quiet then error else if verbose then debug else warn

end Level

/-- What can be reported about a conversion. -/
inductive Event where
  /-- The source has more voices than the player takes. -/
  | surplusVoices (count limit : Nat)
  /-- A character of a voice is outside the grammar. -/
  | dropped (stray : Lexeme)
  /-- A note without pitch stays as it is. -/
  | keptAsWritten (raw : List Char) (error : Pitch.Error)
  /-- A voice has been played to its end. -/
  | played (fragments : Nat) (final : State)
  /-- The text of a voice before it is compacted. -/
  | intermediate (text : List Char)
  /-- A length macro changes nothing and is left out. -/
  | droppedRepeat (run : Run)
  /-- A voice and what it has become. -/
  | converted (voice result : List Char)
  /-- The options of a conversion. -/
  | options (options : Options)
  /-- The output has been written to a file. -/
  | saved (path : List Char)

namespace Event

def level : Event → Level
  | surplusVoices .. => .warn
  | dropped _ => .trace
  | keptAsWritten .. => .debug
  | played .. => .trace
  | intermediate _ => .debug
  | droppedRepeat _ => .trace
  | converted .. => .debug
  | options _ => .debug
  | saved _ => .info

def boolText (b : Bool) : List Char := if b then "true".toList else "false".toList

def message : Event → List Char
  | surplusVoices count limit =>
    "ignoring ".toList ++ Numeral.ofNat count ++ " voice(s) beyond the first ".toList ++
      Numeral.ofNat limit
  | dropped stray =>
    "dropping unrecognised input Some(".toList ++ Text.quote stray.raw ++ ") at ".toList ++
      stray.span.render
  | keptAsWritten raw error =>
    "keeping ".toList ++ Text.quote raw ++ " as written: ".toList ++ error.message
  | played fragments final =>
    "converted ".toList ++ Numeral.ofNat fragments ++ " fragment(s), final octave ".toList ++
      Numeral.ofInt final.octave ++ ", length ".toList ++ final.length.render
  | intermediate text => "intermediate: ".toList ++ text
  | droppedRepeat run =>
    "dropping repeated ".toList ++ run.text ++ " at ".toList ++ Numeral.ofNat run.start
  | converted voice result =>
    "voice ".toList ++ Text.quote voice ++ " -> ".toList ++ Text.quote result
  | options o =>
    "options: ConvertOptions \x7b strip_volume: ".toList ++ boolText o.stripVolume ++
      ", strip_tempo: ".toList ++ boolText o.stripTempo ++ " \x7d".toList
  | saved path => "output saved to ".toList ++ path

/-- The event as a line of the log, which may go to a terminal. -/
def render (e : Event) : List Char := e.level.name ++ ' ' :: Text.forTerminal e.message

def shownAt (limit : Level) (events : List Event) : List Event :=
  events.filter fun e => e.level.rank ≤ limit.rank

end Event

end Drumline
