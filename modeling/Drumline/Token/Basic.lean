import Drumline.Length
import Drumline.Pitch
import Drumline.Token.Shape

/-! The tokens of a voice.  `Token.read?` gives the token that a text of the right shape spells. -/

namespace Drumline

/-- A token of a voice.  The digits of an absolute note are kept as written, and a stray is a
character outside the grammar. -/
inductive Token where
  | octaveSet (octave : Int)
  | octaveUp
  | octaveDown
  | lengthMacro (length : Length)
  | tie
  | note (letter : Char) (accidental : Accidental) (duration : Duration)
  | rest (duration : Duration)
  | absolute (digits : List Char) (duration : Duration)
  | volume
  | tempo
  | number
  | stray
  deriving DecidableEq

namespace Token

def describe : Token → List Char
  | octaveSet octave => "octave-set ".toList ++ Numeral.ofInt octave
  | octaveUp => "octave-up".toList
  | octaveDown => "octave-down".toList
  | lengthMacro length => "length-macro ".toList ++ length.render
  | tie => "tie".toList
  | note letter _ _ => "relative-note ".toList ++ [letter]
  | rest _ => "rest".toList
  | absolute digits _ => "absolute-note ".toList ++ digits
  | volume => "volume".toList
  | tempo => "tempo".toList
  | number => "other".toList
  | stray => "stray".toList

/-- The octave that the digits set, at most the greatest signed word. -/
def readOctave (digits : List Char) : Int := min (Numeral.readWord digits : Int) Pitch.greatest

def readNote? (letter : Char) (tail : List Char) : Option Token :=
  let (sign, length) := splitHead isSign tail
  (Duration.parse? length).map (note letter (.ofSign sign.head?))

/-- An absolute note takes its digits as its number, so a dot is all that is left for its
duration. -/
def readAbsolute (tail : List Char) : Token :=
  let (digits, dotted) := Duration.splitDot tail
  absolute digits ⟨none, dotted⟩

/-- The token that a text spells, given that it has the shape which its first character asks
for. -/
def read? : List Char → Option Token
  | [] => none
  | 'o' :: digits => some (octaveSet (readOctave digits))
  | '>' :: _ => some octaveUp
  | '<' :: _ => some octaveDown
  | 'l' :: tail => (Length.parseMacro? ('l' :: tail)).map lengthMacro
  | '&' :: _ => some tie
  | 'r' :: tail => (Duration.parse? tail).map rest
  | 'n' :: tail => some (readAbsolute tail)
  | 'v' :: _ => some volume
  | 't' :: _ => some tempo
  | c :: tail => if isNoteLetter c then readNote? c tail else some number

end Token

end Drumline
