import Drumline.CommandLine.Arguments
import Drumline.CommandLine.Files
import Drumline.CommandLine.Listing
import Drumline.Config
import Drumline.Log.Conversion

/-! Running the program.  A run reads what it needs from its host, and its `Outcome` says what it
prints, what it logs and whether it failed. -/

namespace Drumline.CommandLine

inductive Failure where
  | inputUnreadable (error : FileError)
  | sourceUnreadable (path : List Char) (error : FileError)
  | configUnreadable (path : List Char) (error : FileError)
  | configInvalid (path text : List Char) (fault : Json.Fault)
  | outputUnwritable (path : List Char) (error : FileError)

namespace Failure

def cause : Failure → List Char
  | inputUnreadable error | sourceUnreadable _ error | configUnreadable _ error
  | outputUnwritable _ error => error.message
  | configInvalid _ text fault => fault.message text

def message : Failure → List Char
  | inputUnreadable _ => "Failed to read MML from stdin".toList
  | sourceUnreadable path _ => "Failed to read ".toList ++ path
  | configUnreadable path error =>
    "Failed to read config ".toList ++ path ++ ": ".toList ++ error.message
  | configInvalid path text fault =>
    "Invalid config ".toList ++ path ++ ": ".toList ++ fault.message text
  | outputUnwritable path _ => "Failed to write ".toList ++ path

/-- The failure with its cause, as it is reported. -/
def report (f : Failure) : List Char :=
  "Error: ".toList ++ f.message ++ "\n\nCaused by:\n    ".toList ++ f.cause

end Failure

/-- What a run prints, what can be reported about it, and why it failed if it did. -/
structure Outcome where
  output : List Char
  events : List Event
  failure : Option Failure

namespace Outcome

def failed (events : List Event) (failure : Failure) : Outcome := ⟨[], events, some failure⟩

def exitCode (o : Outcome) : UInt32 := if o.failure.isSome then 1 else 0

/-- What is reported about the failure, if there is one. -/
def report (o : Outcome) : List Char := (o.failure.map Failure.report).getD []

def log (o : Outcome) (level : Level) : List (List Char) :=
  (Event.shownAt level o.events).map Event.render

end Outcome

def line (text : List Char) : List Char := text ++ ['\n']

/-- The options in the bytes of a config file. -/
def optionsOfBytes (path : List Char) (bytes : ByteArray) : Except Failure Options :=
  match decode bytes with
  | .error error => .error (.configUnreadable path error)
  | .ok text => (Config.parse text).mapError (.configInvalid path text)

namespace Conversion

def flags (c : Conversion) : Options := ⟨c.stripVolume, c.stripTempo⟩

def render (c : Conversion) (options : Options) (source : List Char) : List Char :=
  let score := Score.convert options source
  match c.format with
  | .text => score.render
  | .json => score.toJson.render

variable {m : Type → Type} [Monad m]

def readSource (c : Conversion) (host : Host m) : m (Except Failure (List Char)) := do
  match c.source with
  | .given mml => return .ok mml
  | .file path =>
    let bytes ← host.readFile path
    return (bytes >>= decode).mapError (.sourceUnreadable path)
  | .standardInput =>
    let bytes ← host.readInput
    return (decode bytes).mapError .inputUnreadable

/-- Reads the options: those of the config file, if there is one, and those of the flags. -/
def readOptions (c : Conversion) (host : Host m) : m (Except Failure Options) := do
  match c.config with
  | none => return .ok c.flags
  | some path =>
    match ← host.readFile path with
    | .error error => return .error (.configUnreadable path error)
    | .ok bytes => return (optionsOfBytes path bytes).map (·.merge c.flags)

def deliver (c : Conversion) (host : Host m) (events : List Event) (result : List Char) :
    m Outcome := do
  match c.output with
  | none => return ⟨result, events, none⟩
  | some path =>
    match ← host.writeFile path result with
    | .error error => return .failed events (.outputUnwritable path error)
    | .ok () => return ⟨[], events ++ [.saved path], none⟩

/-- Reads the source, then the options, converts, and delivers the result. -/
def run (c : Conversion) (host : Host m) : m Outcome := do
  match ← c.readSource host with
  | .error failure => return .failed [] failure
  | .ok source =>
    match ← c.readOptions host with
    | .error failure => return .failed [] failure
    | .ok options =>
      c.deliver host (.options options :: Score.events options source)
        (line (c.render options source))

end Conversion

def listTokens (voice : List Char) : TokenFormat → List Char
  | .columns => (Lexeme.tokenize voice).flatMap fun x => line x.listing
  | .json => line (Json.arr ((Lexeme.tokenize voice).map Lexeme.toJson)).render

/-- What is reported about a voice that is only listed. -/
def listingEvents (voice : List Char) : List Event := (Lexeme.strays voice).map .dropped

def Task.run {m : Type → Type} [Monad m] (task : Task) (host : Host m) : m Outcome :=
  match task with
  | .convert conversion => conversion.run host
  | .tokens mml format => return ⟨listTokens mml format, listingEvents mml, none⟩
  | .table => return ⟨Kit.entries.flatMap fun entry => line (Kit.listing entry), [], none⟩

/-- The exit code for arguments that make no invocation. -/
def Refusal.exitCode : Refusal → UInt32
  | help => 0
  | usage => 2

/-- What the program puts on standard output, the texts that it puts on standard error, each with a
line break behind it, and its exit code. -/
structure Printed where
  output : List Char
  errors : List (List Char)
  exitCode : UInt32

/-- What is printed of an outcome, where the log goes up to a level. -/
def Outcome.printed (o : Outcome) (level : Level) : Printed :=
  ⟨o.output, o.log level ++ (o.failure.map Failure.report).toList, o.exitCode⟩

namespace Invocation

/-- The least important level that the invocation logs. -/
def level (i : Invocation) : Level := Level.ofFlags i.verbose i.quiet

def run {m : Type → Type} [Monad m] (i : Invocation) (host : Host m) : m Printed := do
  return (← i.task.run host).printed i.level

end Invocation

/-- Runs the program, if its arguments make an invocation. -/
def run {m : Type → Type} [Monad m] (host : Host m) (arguments : List (List Char)) :
    m (Except Refusal Printed) := do
  match Invocation.ofArguments arguments with
  | .error refusal => return .error refusal
  | .ok invocation => return .ok (← invocation.run host)

end Drumline.CommandLine
