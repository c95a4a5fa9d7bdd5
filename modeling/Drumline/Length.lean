import Drumline.Numeral

/-! Note lengths.  A `Length` is a complete length such as the `8.` of `l8.`; a `Duration` is what a
note or rest carries after its letter, and may leave the value unset.  `Duration.resolve` completes
a duration from the current default length. -/

namespace Drumline

/-- A length value, as the player writes it after `l`, and its dot. -/
structure Length where
  value : UInt32
  dotted : Bool
  deriving DecidableEq

/-- The length digits of a note or rest, if it has any, and its dot. -/
structure Duration where
  value : Option UInt32
  dotted : Bool
  deriving DecidableEq

namespace Duration

/-- The text without its last dot, and whether it had one. -/
def splitDot (text : List Char) : List Char × Bool :=
  if text.getLast? = some '.' then (text.dropLast, true) else (text, false)

/-- Reads digits and an optional dot.  No digits leave the value unset, and a value that needs more
than 32 bits becomes the largest one. -/
def parse? (text : List Char) : Option Duration :=
  let (digits, dotted) := splitDot text
  if digits.all Char.isDigit then
    some ⟨if digits.isEmpty then none else some (Numeral.readShortWord digits), dotted⟩
  else
    none

/-- An explicit value keeps its own dot; an unset value becomes the default one, dotted if either
of the two is. -/
def resolve (d : Duration) (default : Length) : Length :=
  match d.value with
  | some value => ⟨value, d.dotted⟩
  | none => ⟨default.value, d.dotted || default.dotted⟩

end Duration

namespace Length

/-- The length in force before any length macro: a quarter. -/
def initial : Length := ⟨4, false⟩

/-- Reads a whole length macro: `l`, one digit or more, and an optional dot. -/
def parseMacro? : List Char → Option Length
  | 'l' :: body => do
    let duration ← Duration.parse? body
    let value ← duration.value
    return ⟨value, duration.dotted⟩
  | _ => none

def render (l : Length) : List Char :=
  'l' :: Numeral.ofNat l.value.toNat ++ if l.dotted then ['.'] else []

end Length

end Drumline
