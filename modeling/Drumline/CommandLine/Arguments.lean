/-! The arguments of the command line.  `Invocation.ofArguments` reads them from left to right; the
first argument that does not fit, or a request for help, ends the reading. -/

namespace Drumline.CommandLine

/-- Why the arguments make no invocation. -/
inductive Refusal where
  | help
  | usage
  deriving DecidableEq

inductive ScoreFormat where
  | text
  | json
  deriving DecidableEq

inductive TokenFormat where
  | columns
  | json
  deriving DecidableEq

inductive SourceChoice where
  | given (mml : List Char)
  | file (path : List Char)
  | standardInput
  deriving DecidableEq

structure Conversion where
  source : SourceChoice
  stripVolume : Bool
  stripTempo : Bool
  config : Option (List Char)
  format : ScoreFormat
  output : Option (List Char)
  deriving DecidableEq

inductive Task where
  | convert (conversion : Conversion)
  | tokens (mml : List Char) (format : TokenFormat)
  | table
  deriving DecidableEq

/-- What is asked for, and how much is to be logged. -/
structure Invocation where
  verbose : Bool
  quiet : Bool
  task : Task
  deriving DecidableEq

inductive Verb where
  | convert
  | tokens
  | table
  deriving DecidableEq

inductive Switch where
  | quiet
  | verbose
  | help
  | stripVolume
  | stripTempo
  | file
  | config
  | output
  | format
  deriving DecidableEq

namespace Switch

def takesValue : Switch → Bool
  | file | config | output | format => true
  | quiet | verbose | help | stripVolume | stripTempo => false

/-- The option belongs to a command, or may stand before it. -/
def belongsTo : Switch → Option Verb → Bool
  | quiet, _ | verbose, _ | help, _ => true
  | format, verb => verb == some .convert || verb == some .tokens
  | stripVolume, verb | stripTempo, verb | file, verb | config, verb | output, verb =>
    verb == some .convert

def ofLetter? : Char → Option Switch
  | 'q' => some quiet
  | 'v' => some verbose
  | 'h' => some help
  | 'f' => some file
  | 'c' => some config
  | 'o' => some output
  | _ => none

def ofName? (name : List Char) : Option Switch :=
  [("quiet", quiet), ("verbose", verbose), ("help", help), ("strip-volume", stripVolume),
    ("strip-tempo", stripTempo), ("file", file), ("config", config), ("output", output),
    ("format", format)].findSome? fun (known, switch) =>
      if known.toList = name then some switch else none

end Switch

/-- What the arguments before or after the command have given so far. -/
structure Given where
  flags : List Switch := []
  settings : List (Switch × List Char) := []
  words : List (List Char) := []

namespace Given

def has (g : Given) (switch : Switch) : Bool := g.flags.contains switch

def value? (g : Given) (switch : Switch) : Option (List Char) := g.settings.lookup switch

/-- The option is given once at most, and a request for help ends the reading. -/
def addFlag (g : Given) (switch : Switch) : Except Refusal Given :=
  if g.has switch then .error .usage
  else if switch = .help then .error .help
  else .ok { g with flags := switch :: g.flags }

def knowsFormat (verb : Option Verb) (name : List Char) : Bool :=
  name == "json".toList ||
    (verb == some .convert && name == "text".toList) ||
    (verb == some .tokens && name == "debug".toList)

/-- The value of an option has to be a format that the command knows, or a path that is not
empty. -/
def acceptsValue (verb : Option Verb) (switch : Switch) (value : List Char) : Bool :=
  if switch = .format then knowsFormat verb value else !value.isEmpty

/-- The option is given once at most, with a value that it accepts. -/
def addSetting (g : Given) (verb : Option Verb) (switch : Switch) (value : List Char) :
    Except Refusal Given :=
  if (g.value? switch).isSome || !acceptsValue verb switch value then .error .usage
  else .ok { g with settings := (switch, value) :: g.settings }

/-- A command takes one word of text, except that the table takes none. -/
def addWord (g : Given) (verb : Option Verb) (word : List Char) : Except Refusal Given :=
  match verb, g.words with
  | some .convert, [] | some .tokens, [] => .ok { g with words := [word] }
  | _, _ => .error .usage

/-- Takes in letters that follow a single dash.  The characters after the letter of an option with
a value are its value, and if there are none, the option waits for the next argument. -/
def addLetters (g : Given) (verb : Option Verb) : List Char → Except Refusal (Given × Option Switch)
  | [] => .ok (g, none)
  | letter :: letters =>
    match (Switch.ofLetter? letter).filter (·.belongsTo verb) with
    | none => .error .usage
    | some switch =>
      if switch.takesValue then
        match letters with
        | [] => .ok (g, some switch)
        | '=' :: value => (g.addSetting verb switch value).map (·, none)
        | value => (g.addSetting verb switch value).map (·, none)
      else do
        let g ← g.addFlag switch
        g.addLetters verb letters

/-- Takes in a name that follows two dashes, with a value after the first equality sign.  An option
with a value that has none yet waits for the next argument. -/
def addName (g : Given) (verb : Option Verb) (text : List Char) :
    Except Refusal (Given × Option Switch) :=
  let name := text.takeWhile (· != '=')
  match (Switch.ofName? name).filter (·.belongsTo verb), text.drop name.length with
  | none, _ => .error .usage
  | some switch, [] =>
    if switch.takesValue then .ok (g, some switch) else (g.addFlag switch).map (·, none)
  | some switch, _ :: value =>
    if switch.takesValue then (g.addSetting verb switch value).map (·, none) else .error .usage

/-- An argument that may stand for a value or a word: a single dash, or one that starts with no
dash. -/
def isPlain (argument : List Char) : Bool := argument == ['-'] || argument.head? != some '-'

def addSwitches (g : Given) (verb : Option Verb) :
    List Char → Except Refusal (Given × Option Switch)
  | '-' :: '-' :: text => g.addName verb text
  | '-' :: letters => g.addLetters verb letters
  | _ => .error .usage

/-- Takes in the arguments.  Before the command, the first word ends them and is left over; after
it, all arguments behind two dashes are words. -/
def addAll (g : Given) (verb : Option Verb) :
    List (List Char) → Except Refusal (Given × List (List Char))
  | [] => .ok (g, [])
  | argument :: rest =>
    if isPlain argument then
      match verb with
      | none => .ok (g, argument :: rest)
      | some _ => do
        let g ← g.addWord verb argument
        g.addAll verb rest
    else if argument = ['-', '-'] then do
      let g ← rest.foldlM (fun g word => g.addWord verb word) g
      if verb.isNone then .error .usage else .ok (g, [])
    else do
      let (g, waiting) ← g.addSwitches verb argument
      match waiting, rest with
      | none, rest => g.addAll verb rest
      | some _, [] => .error .usage
      | some switch, value :: rest =>
        if isPlain value then do
          let g ← g.addSetting verb switch value
          g.addAll verb rest
        else
          .error .usage
  termination_by arguments => arguments.length

end Given

namespace Verb

def ofName? (name : List Char) : Option Verb :=
  if name = "convert".toList then some convert
  else if name = "tokens".toList then some tokens
  else if name = "table".toList then some table
  else none

/-- What a command is to do with what its arguments have given.  A text and a file exclude each
other, and the tokens need a text. -/
def task (verb : Verb) (g : Given) : Except Refusal Task :=
  let json := g.value? .format == some "json".toList
  match verb, g.words.head? with
  | convert, word => do
    let source ← match word, g.value? .file with
      | some _, some _ => .error .usage
      | some mml, none => .ok (.given mml)
      | none, some path => .ok (.file path)
      | none, none => .ok .standardInput
    return .convert {
      source
      stripVolume := g.has .stripVolume
      stripTempo := g.has .stripTempo
      config := g.value? .config
      format := if json then .json else .text
      output := g.value? .output }
  | tokens, some mml => .ok (.tokens mml (if json then .json else .columns))
  | tokens, none => .error .usage
  | table, _ => .ok .table

end Verb

/-- A request for help on the program or on one of its commands. -/
def helpFor (names : List (List Char)) : Refusal :=
  match names with
  | [] => .help
  | [name] => if (Verb.ofName? name).isSome || name == "help".toList then .help else .usage
  | _ => .usage

def Invocation.ofArguments (arguments : List (List Char)) : Except Refusal Invocation := do
  let (before, rest) ← Given.addAll {} none arguments
  match rest with
  | [] => .error .usage
  | name :: rest =>
    match Verb.ofName? name with
    | none => .error (if name = "help".toList then helpFor rest else .usage)
    | some verb =>
      let (after, _) ← Given.addAll {} (some verb) rest
      let task ← verb.task after
      return {
        verbose := before.has .verbose || after.has .verbose
        quiet := before.has .quiet || after.has .quiet
        task }

end Drumline.CommandLine
