/-! Pitch.  A note letter has a semitone within its octave, an accidental moves it by one, and
`Pitch.absolute` numbers the note from octave and letter.  Octaves and note numbers are signed words
of 64 bits; an operation whose result does not fit gives the nearest one. -/

namespace Drumline

/-- The sign after a note letter. -/
inductive Accidental where
  | flat
  | natural
  | sharp
  deriving DecidableEq

namespace Accidental

/-- A plus sign is a sharp and a minus sign a flat. -/
def ofSign : Option Char → Accidental
  | some '+' => sharp
  | some '-' => flat
  | _ => natural

def offset : Accidental → Int
  | flat => -1
  | natural => 0
  | sharp => 1

end Accidental

namespace Pitch

/-- The least signed word of 64 bits. -/
def least : Int := -0x8000000000000000

/-- The greatest signed word of 64 bits. -/
def greatest : Int := 0x7FFFFFFFFFFFFFFF

/-- The signed word nearest to an integer. -/
def clamp (i : Int) : Int := max least (min i greatest)

def semitone? : Char → Option Int
  | 'c' => some 0
  | 'd' => some 2
  | 'e' => some 4
  | 'f' => some 5
  | 'g' => some 7
  | 'a' => some 9
  | 'b' => some 11
  | _ => none

inductive Error where
  | unknownLetter (letter : Char)
  deriving DecidableEq

def Error.message : Error → List Char
  | unknownLetter letter => "no semitone mapping for note letter '".toList ++ [letter, '\'']

/-- The drum kit has its natural `a` of octave 2 two semitones above the regular place. -/
def calibration (octave : Int) (letter : Char) (accidental : Accidental) : Int :=
  if octave = 2 ∧ letter = 'a' ∧ accidental = .natural then 2 else 0

/-- The number of a note: twelve for each octave, the semitone of the letter, the accidental and
the calibration, each result clamped. -/
def absolute (octave : Int) (letter : Char) (accidental : Accidental) : Except Error Int :=
  match semitone? letter with
  | none => .error (.unknownLetter letter)
  | some semitone =>
    .ok (clamp (clamp (clamp (clamp (octave * 12) + semitone) + accidental.offset) +
      calibration octave letter accidental))

end Pitch

end Drumline
