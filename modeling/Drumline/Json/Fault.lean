import Drumline.Numeral
import Drumline.Text.Quoted
import Drumline.Text.Size

/-! What can be wrong with a JSON text, and where.  A fault knows how many bytes of the text were
not read when it was found, and `Place` turns that into a line and a column. -/

namespace Drumline.Json

/-- What stands where something else is due. -/
inductive Found where
  | null
  | bool (b : Bool)
  | integer (text : List Char)
  | float (text : List Char)
  | str (s : List Char)
  | array
  | object
  deriving DecidableEq

/-- What is wrong at a place of a text. -/
inductive Problem where
  | endInValue
  | endInString
  | endInArray
  | endInObject
  | valueExpected
  | wordExpected
  | keyExpected
  | colonExpected
  | commaOrBracketExpected
  | commaOrBraceExpected
  | trailingComma
  | trailingCharacters
  | badNumber
  | numberOutOfRange
  | badEscape
  | controlCharacter
  | loneSurrogate
  | unfinishedSurrogate
  | repeatedField (name : List Char)
  | wrongType (found : Found) (expected : List Char)
  deriving DecidableEq

def Found.message : Found → List Char
  | null => "null".toList
  | bool true => "boolean `true`".toList
  | bool false => "boolean `false`".toList
  | integer text => "integer `".toList ++ text ++ ['`']
  | float text => "floating point `".toList ++ text ++ ['`']
  | str s => "string ".toList ++ Text.quote s
  | array => "sequence".toList
  | object => "map".toList

def Problem.message : Problem → List Char
  | endInValue => "EOF while parsing a value".toList
  | endInString => "EOF while parsing a string".toList
  | endInArray => "EOF while parsing a list".toList
  | endInObject => "EOF while parsing an object".toList
  | valueExpected => "expected value".toList
  | wordExpected => "expected ident".toList
  | keyExpected => "key must be a string".toList
  | colonExpected => "expected `:`".toList
  | commaOrBracketExpected => "expected `,` or `]`".toList
  | commaOrBraceExpected => "expected `,` or `\x7d`".toList
  | trailingComma => "trailing comma".toList
  | trailingCharacters => "trailing characters".toList
  | badNumber => "invalid number".toList
  | numberOutOfRange => "number out of range".toList
  | badEscape => "invalid escape".toList
  | controlCharacter =>
    "control character (\\u0000-\\u001F) found while parsing a string".toList
  | loneSurrogate => "lone leading surrogate in hex escape".toList
  | unfinishedSurrogate => "unexpected end of hex escape".toList
  | repeatedField name => "duplicate field `".toList ++ name ++ ['`']
  | wrongType found expected =>
    "invalid type: ".toList ++ found.message ++ ", expected ".toList ++ expected

/-- A problem, and the number of bytes at the end of the text that had not been read. -/
structure Fault where
  problem : Problem
  unread : Nat
  deriving DecidableEq

namespace Fault

def atEnd (problem : Problem) : Fault := ⟨problem, 0⟩

/-- The problem shows before `rest`. -/
def before (problem : Problem) (rest : List Char) : Fault := ⟨problem, Text.byteSize rest⟩

/-- The problem is the first byte of `rest`. -/
def upon (problem : Problem) (rest : List Char) : Fault := ⟨problem, Text.byteSize rest - 1⟩

end Fault

/-- A line, counted from one, and the number of bytes of it up to a place. -/
structure Place where
  line : Nat
  column : Nat
  deriving DecidableEq

namespace Place

/-- The place `n` bytes further on in the text. -/
def forward (p : Place) : Nat → List Char → Place
  | 0, _ => p
  | _ + 1, [] => p
  | n + 1, c :: text =>
    if c = '\n' then forward ⟨p.line + 1, 0⟩ n text
    else forward ⟨p.line, p.column + min c.utf8Size (n + 1)⟩ (n + 1 - c.utf8Size) text
  termination_by _ text => text.length

/-- The place of a fault in its text. -/
def ofFault (text : List Char) (fault : Fault) : Place :=
  forward ⟨1, 0⟩ (Text.byteSize text - fault.unread) text

def message (p : Place) : List Char :=
  "line ".toList ++ Numeral.ofNat p.line ++ " column ".toList ++ Numeral.ofNat p.column

end Place

def Fault.message (text : List Char) (fault : Fault) : List Char :=
  fault.problem.message ++ " at ".toList ++ (Place.ofFault text fault).message

end Drumline.Json
